import SafetyCase.Editor.Batch
import SafetyCase.Proofs.Resolution
/-! What is known of an edit that was accepted for a kind of document: its payload is the one that its intent
and its target call for. Of a batch that asks nothing back, every edit that will be tried is such an edit,
the parts of compound commands included. -/
namespace SafetyCase
open Intake (Checked)

inductive Edit.Fits (k : Kind) (e : Edit) : Prop where
  | rates {a : Assessment} (target : e.target = .assessment) (supported : k.supportsAssessment = true)
      (intent : e.intent = .add ∨ e.intent = .modify) (payload : e.payload = some (.assessment a))
      (axes : a.rates = true)
  | unrates {a : Assessment} (target : e.target = .assessment) (supported : k.supportsAssessment = true)
      (intent : e.intent = .delete) (payload : e.payload = some (.assessment a))
  | fills {t : EntityType} {given : List (String × Json)} {cs : List (Attribute × Json)}
      (plain : e.target ≠ .assessment) (type : e.target.entityType? k = some t)
      (intent : e.intent = .add ∨ e.intent = .insert ∨ e.intent = .modify)
      (read : readForm t.form given = .ok cs) (payload : e.payload = some (.fields t cs))
  | deletes {t : EntityType} (plain : e.target ≠ .assessment) (type : e.target.entityType? k = some t)
      (intent : e.intent = .delete) (payload : e.payload = none)
  | orders {t : EntityType} {refs : List String} (plain : e.target ≠ .assessment)
      (type : e.target.entityType? k = some t) (intent : e.intent = .reorder) (payload : e.payload = some (.order refs))

def Edit.Asks (e : Edit) : Prop := e.intent = .clarify ∧ ∃ q, e.payload = some (.question q)

/-- The edits of a command that are tried one by one. -/
def Command.leaves (c : Command) : List Edit := if c.target = .multiple then c.parts else [c.toEdit]

def worded (intent target : String) (location data : List (String × Json)) : Json :=
  .object [("intent", .text intent), ("target", .text target), ("location", .object location), ("data", .object data)]

theorem readFormRow {form : List FormField} {given : List (String × Json)} {cs : List (Attribute × Json)}
    (done : readForm form given = .ok cs) : (cs.map (·.1)).Sublist (form.map (·.sets)) := by
  induction form generalizing cs with
  | nil =>
    cases done
    exact .refl _
  | cons f rest ih =>
    obtain ⟨first, others, read, readRest, rfl⟩ := Checked.bothOkIff.mp done
    obtain ⟨v, _, rfl⟩ := okOfMap read
    cases v with
    | none => exact (ih readRest).cons f.sets
    | some j => exact (ih readRest).cons_cons f.sets

theorem readFormNames {form : List FormField} {given : List (String × Json)} {cs : List (Attribute × Json)}
    (done : readForm form given = .ok cs) : ∀ c ∈ cs, c.1 ∈ form.map (·.sets) :=
  fun _ listed => (readFormRow done).subset (List.mem_map_of_mem listed)

namespace Draft

variable {k : Kind} {d : Draft}

theorem unhindered (free : d.obstacle? k = none) :
    d.target.supported k = true ∧ (d.target = .assessment → d.intent.canAssess = true) ∧
      (d.intent.needsReference = true → d.place.hasReference = true) := by
  unfold obstacle? at free
  repeat' split at free
  all_goals simp_all

theorem typeOfSupported {target : Target} (supported : target.supported k = true) (single : target ≠ .multiple) :
    ∃ t, target.entityType? k = some t := by
  cases target <;> simp_all [Target.supported, Target.entityType?, Option.isSome_iff_exists]

theorem ratingGiven {a : Assessment} (rates : d.target = .assessment) (kept : d.intent ≠ .delete)
    (whole : d.shortfall? (some (.assessment a)) = none) : a.rates = true := by
  unfold shortfall? at whole
  split at whole
  · contradiction
  · rw [rates] at whole
    cases intent : d.intent <;> simp_all

theorem assessmentFits {payload : Option Payload} (rates : d.target = .assessment) (free : d.obstacle? k = none)
    (read : Payload.read k d.intent d.target d.given = .ok payload) (whole : d.shortfall? payload = none) :
    (d.edit payload).Fits k := by
  obtain ⟨supported, assessable, _⟩ := unhindered free
  have able := assessable rates
  rw [rates] at read supported
  cases intent : d.intent with
  | insert | reorder | clarify => simp [intent, Intent.canAssess] at able
  | delete =>
    rw [intent] at read
    obtain ⟨a, _, rfl⟩ := okOfMap read
    exact .unrates rates supported intent rfl
  | add =>
    rw [intent] at read
    obtain ⟨a, _, rfl⟩ := okOfMap read
    exact .rates rates supported (.inl intent) rfl (ratingGiven rates (by simp [intent]) whole)
  | modify =>
    rw [intent] at read
    obtain ⟨a, _, rfl⟩ := okOfMap read
    exact .rates rates supported (.inr intent) rfl (ratingGiven rates (by simp [intent]) whole)

theorem formRead {intent : Intent} {target : Target} {t : EntityType} {given : List (String × Json)}
    {payload : Option Payload} (fills : intent = .add ∨ intent = .insert ∨ intent = .modify)
    (plain : target ≠ .assessment) (type : target.entityType? k = some t)
    (read : Payload.read k intent target given = .ok payload) :
    ∃ cs, readForm t.form given = .ok cs ∧ payload = some (.fields t cs) := by
  have read : (readForm t.form given).map (fun changes => some (Payload.fields t changes)) = .ok payload := by
    rcases fills with rfl | rfl | rfl <;> cases target <;> simp_all [Payload.read]
  obtain ⟨cs, done, rfl⟩ := okOfMap read
  exact ⟨cs, done, rfl⟩

theorem plainFits {payload : Option Payload} (asks : d.intent ≠ .clarify) (single : d.target ≠ .multiple)
    (plain : d.target ≠ .assessment) (free : d.obstacle? k = none)
    (read : Payload.read k d.intent d.target d.given = .ok payload) : (d.edit payload).Fits k := by
  obtain ⟨t, type⟩ := typeOfSupported (unhindered free).1 single
  have fills (intent : d.intent = .add ∨ d.intent = .insert ∨ d.intent = .modify) : (d.edit payload).Fits k := by
    obtain ⟨cs, done, rfl⟩ := formRead intent plain type read
    exact .fills plain type intent done rfl
  cases intent : d.intent with
  | add => exact fills (.inl intent)
  | insert => exact fills (.inr (.inl intent))
  | modify => exact fills (.inr (.inr intent))
  | clarify => contradiction
  | reorder =>
    rw [intent] at read
    obtain ⟨refs, _, rfl⟩ := okOfMap (show (Payload.readOrder d.given).map _ = _ from read)
    exact .orders plain type intent rfl
  | delete =>
    have none : payload = none := by
      rw [intent] at read
      cases target : d.target <;> simp_all [Payload.read]
    subst none
    exact .deletes plain type intent rfl

structure Accepted (k : Kind) (d : Draft) (e : Edit) : Prop where
  free : d.obstacle? k = none
  read : Payload.read k d.intent d.target d.given = .ok e.payload
  whole : d.shortfall? e.payload = none
  same : d.edit e.payload = e

theorem accepted {e : Edit} (done : d.toEdit k = .ok e) : d.Accepted k e := by
  unfold toEdit at done
  split at done
  · contradiction
  · rename_i free
    split at done
    · contradiction
    · rename_i payload read
      split at done
      · contradiction
      · rename_i whole
        cases done
        exact ⟨free, read, whole, rfl⟩

theorem Accepted.target {e : Edit} (accepted : d.Accepted k e) : e.target = d.target := by
  rw [← accepted.same]
  rfl

theorem Accepted.intent {e : Edit} (accepted : d.Accepted k e) : e.intent = d.intent := by
  rw [← accepted.same]
  rfl

theorem Accepted.location {e : Edit} (accepted : d.Accepted k e) : e.location = d.place := by
  rw [← accepted.same]
  rfl

theorem toEditFits {e : Edit} (asks : d.intent ≠ .clarify) (single : d.target ≠ .multiple)
    (done : d.toEdit k = .ok e) : e.Fits k := by
  obtain ⟨free, read, whole, same⟩ := accepted done
  rw [← same]
  by_cases rates : d.target = .assessment
  · exact assessmentFits rates free read whole
  · exact plainFits asks single rates free read

def Made (k : Kind) (e : Edit) : Prop := ∃ d : Draft, d.toEdit k = .ok e ∧ d.intent ≠ .clarify ∧ d.target ≠ .multiple

theorem madeFits {e : Edit} (made : Made k e) : e.Fits k := by
  obtain ⟨d, done, asks, single⟩ := made
  exact toEditFits asks single done

theorem partMade {raw : Json} {e : Edit} (done : part? k raw = some e) : Made k e := by
  unfold part? at done
  split at done
  · contradiction
  · rename_i d _
    split at done
    · contradiction
    · rename_i part
      obtain ⟨asks, single⟩ : d.intent ≠ .clarify ∧ d.target ≠ .multiple := by simpa using part
      split at done
      · rename_i accepted
        cases done
        exact ⟨d, accepted, asks, single⟩
      · contradiction

theorem compoundParts {c : Command} (done : d.compound k = .ok c) :
    c.target = d.target ∧ c.parts ≠ [] ∧ ∀ e ∈ c.parts, Made k e := by
  unfold compound at done
  split at done
  · contradiction
  · rename_i raws _
    split at done
    · contradiction
    · rename_i filled
      cases done
      refine ⟨rfl, filled, fun e listed => ?_⟩
      obtain ⟨raw, _, part⟩ := List.mem_filterMap.mp listed
      exact partMade part

theorem compoundMade {c : Command} (compound : d.target = .multiple) (done : d.compound k = .ok c) :
    ∀ e ∈ c.leaves, Made k e := by
  obtain ⟨target, -, made⟩ := compoundParts done
  rw [Command.leaves, if_pos (target.trans compound)]
  exact made

theorem questionForm (asks : d.intent = .clarify) : d.question.Asks := by
  unfold question
  split <;> exact ⟨asks, _, rfl⟩

end Draft

theorem validated {k : Kind} {raw : Json} {c : Command} (done : validate k raw = .ok c) :
    (c.isClarification = true ∧ ∀ e ∈ c.leaves, e.Asks) ∨ ∀ e ∈ c.leaves, Draft.Made k e := by
  unfold validate at done
  split at done
  · contradiction
  · rename_i d _
    split at done
    · rename_i asks
      cases done
      have form := Draft.questionForm asks
      refine .inl ⟨decide_eq_true form.1, fun e leaf => ?_⟩
      unfold Command.leaves at leaf
      split at leaf
      · contradiction
      · rw [List.mem_singleton.mp leaf]
        exact form
    · rename_i asks
      refine .inr ?_
      split at done
      · rename_i compound
        exact Draft.compoundMade compound done
      · rename_i single
        split at done
        · rename_i e accepted
          cases done
          have target : (Command.single e).target ≠ .multiple := by
            rw [Command.single, (Draft.accepted accepted).target]
            exact single
          rw [Command.leaves, if_neg target]
          intro x listed
          rw [List.mem_singleton.mp listed]
          exact ⟨d, accepted, asks, single⟩
        · contradiction

theorem validatedMade {k : Kind} {raw : Json} {c : Command} (done : validate k raw = .ok c)
    (tells : c.isClarification = false) : ∀ e ∈ c.leaves, Draft.Made k e := by
  rcases validated done with ⟨asks, _⟩ | made
  · rw [tells] at asks
    contradiction
  · exact made

theorem scanAppend (k : Kind) (limit : Option Int) (index count : Nat) (before after : List Json) :
    (BatchCheck.scan k limit index count (before ++ after)).accepted =
      (BatchCheck.scan k limit index count before).accepted ++
        (BatchCheck.scan k limit (index + before.length)
          (count + (BatchCheck.scan k limit index count before).accepted.length) after).accepted := by
  induction before generalizing index count with
  | nil => rfl
  | cons first rest ih =>
    simp only [List.cons_append, BatchCheck.scan, List.length_cons]
    repeat' split
    all_goals simp [ih, Nat.add_assoc, Nat.add_comm 1]

theorem scannedAt {k : Kind} {limit : Option Int} {index count : Nat} {raws : List Json} {c : Command} :
    c ∈ (BatchCheck.scan k limit index count raws).accepted ↔ ∃ before raw after, raws = before ++ raw :: after ∧
      validate k raw = .ok c ∧
      BatchCheck.isFull limit (count + (BatchCheck.scan k limit index count before).accepted.length) = false := by
  constructor
  · induction raws generalizing index count with
    | nil => simp [BatchCheck.scan]
    | cons first rest ih =>
      intro kept
      simp only [BatchCheck.scan] at kept
      split at kept
      · rename_i full
        obtain ⟨before, raw, after, rfl, done, room⟩ := ih kept
        exact ⟨first :: before, raw, after, rfl, done, by simpa [BatchCheck.scan, full] using room⟩
      · rename_i room
        split at kept
        · rename_i c' accepted
          rcases List.mem_cons.mp kept with rfl | later
          · exact ⟨[], first, rest, rfl, accepted, by simpa [BatchCheck.scan] using room⟩
          · obtain ⟨before, raw, after, rfl, done, left⟩ := ih later
            refine ⟨first :: before, raw, after, rfl, done, ?_⟩
            simpa [BatchCheck.scan, room, accepted, Nat.add_assoc, Nat.add_comm 1] using left
        · rename_i refused
          obtain ⟨before, raw, after, rfl, done, left⟩ := ih kept
          exact ⟨first :: before, raw, after, rfl, done, by simpa [BatchCheck.scan, room, refused] using left⟩
  · rintro ⟨before, raw, after, rfl, done, room⟩
    rw [scanAppend]
    simp [BatchCheck.scan, done, room]

theorem batchMade {k : Kind} {limit : Option Int} {b : Envelope}
    (tells : Desk.asksBack b (validateBatch k limit b.commands) = false) :
    ∀ e ∈ (validateBatch k limit b.commands).accepted.flatMap Command.leaves, Draft.Made k e := by
  intro e listed
  obtain ⟨c, kept, leaf⟩ := List.mem_flatMap.mp listed
  obtain ⟨_, raw, _, _, done, _⟩ := scannedAt.mp kept
  have none := (Bool.or_eq_false_iff.mp tells).2
  exact validatedMade done (by simpa using List.any_eq_false.mp none c kept) e leaf

theorem batchFits {k : Kind} {limit : Option Int} {b : Envelope}
    (tells : Desk.asksBack b (validateBatch k limit b.commands) = false) :
    ∀ e ∈ (validateBatch k limit b.commands).accepted.flatMap Command.leaves, e.Fits k :=
  fun e listed => Draft.madeFits (batchMade tells e listed)

end SafetyCase
