import SafetyCase.Proofs.Bundles
/-! Envelopes and plain batches. Commands that come in an envelope are read once more than commands that come as
a plain batch, and the envelope is turned down as a whole for a single item that is no object. Where all are
objects, the two ways are one. In a plain batch whatever is not valid is reported by exactly one rejection. -/
namespace SafetyCase

namespace BatchCheck

variable {k : Kind} {limit : Option Int}

inductive Reported (k : Kind) (raw : Json) (n : Nat) : List Rejection → Prop where
  | kept {c : Command} (valid : validate k raw = .ok c) : Reported k raw n []
  | late : Reported k raw n [⟨n, .overLimit⟩]
  | refused {refusal : Refusal} (invalid : validate k raw = .error refusal) :
      Reported k raw n [⟨n, .refused refusal⟩]

theorem rejectedFrom (index count : Nat) (raws : List Json) :
    ∀ x ∈ (scan k limit index count raws).rejected, index ≤ x.index := by
  induction raws generalizing index count with
  | nil => simp [scan]
  | cons raw rest ih =>
    have later (count : Nat) : ∀ x ∈ (scan k limit (index + 1) count rest).rejected, index ≤ x.index :=
      fun x listed => Nat.le_of_succ_le (ih (index + 1) count x listed)
    simp only [scan]
    repeat' split
    · simpa using later count
    · exact later (count + 1)
    · simpa using later count

theorem rejectedBefore (index count : Nat) (raws : List Json) {n : Nat} (before : n < index) :
    (scan k limit index count raws).rejected.filter (·.index = n) = [] := by
  rw [List.filter_eq_nil_iff]
  intro x listed
  have placed := rejectedFrom index count raws x listed
  simp only [decide_eq_true_eq]
  omega

theorem reported (index count : Nat) {raws : List Json} {i : Nat} {raw : Json} (given : raws[i]? = some raw) :
    Reported k raw (index + i) ((scan k limit index count raws).rejected.filter (·.index = index + i)) := by
  induction raws generalizing index count i with
  | nil => simp at given
  | cons first rest ih =>
    cases i with
    | zero =>
      cases given
      have later (count : Nat) : (scan k limit (index + 1) count rest).rejected.filter (·.index = index) = [] :=
        rejectedBefore (index + 1) count rest (Nat.lt_succ_self index)
      simp only [scan]
      repeat' split
      · simpa [later] using Reported.late
      · rename_i c valid
        simpa [later] using Reported.kept valid
      · rename_i refusal invalid
        simpa [later] using Reported.refused invalid
    | succ i =>
      have passed : index ≠ index + (i + 1) := by omega
      have later (count : Nat) := ih (index + 1) count given
      rw [Nat.add_assoc, Nat.add_comm 1] at later
      simp only [scan]
      repeat' split
      all_goals simpa [passed] using later _

end BatchCheck

def envelopeFields (items : List Json) (summary : Option String) : List (String × Json) :=
  [("commands", .list items), ("summary", .ofOption .text summary)]

def enveloped (items : List Json) (summary : Option String) : Json := .object (envelopeFields items summary)

theorem envelopeRead (wrong : Intake.Complaint) (items : List Json) (summary : Option String) :
    Envelope.read wrong (enveloped items summary) =
      if Intake.strangers 0 items = [] then .ok { commands := items, summary }
      else .error ((Intake.strangers 0 items).map fun n => ⟨[.key "commands", .index n], .notObject⟩) := by
  have listed : Intake.optional ⟨"commands", "commands"⟩ (envelopeFields items summary) [] Envelope.objects =
      Intake.Checked.under (.key "commands") (Intake.itemsFrom (fun j => (Intake.object j).map .object) 0 items) := rfl
  have told : Envelope.optionalText "summary" "summary" (envelopeFields items summary) = .ok summary := by
    cases summary <;> rfl
  have calm : Intake.optional ⟨"needsClarification", "needs_clarification"⟩ (envelopeFields items summary) false
      Intake.flag = .ok false := rfl
  have unasked : Envelope.optionalText "clarificationPrompt" "clarification_prompt" (envelopeFields items summary) =
      .ok none := rfl
  have untraced : Envelope.optionalText "rawResponse" "raw_response" (envelopeFields items summary) = .ok none := rfl
  rw [Intake.objectItems] at listed
  simp only [Envelope.read, enveloped, Envelope.ofFields, listed, told, calm, unasked, untraced]
  by_cases clean : Intake.strangers 0 items = [] <;>
    simp [clean, Intake.Checked.under, Intake.Checked.both]

namespace Desk

variable {k k' : Desk} {d : Document} {b : Envelope} {r : BatchResult}

/-- Reads an envelope and applies it as a batch. An envelope that cannot be read reaches nothing. -/
def applyParsed (k : Desk) (raw : Json) : Intake.Checked (Except Failure BatchResult × Desk) :=
  (Envelope.read (.notRecord "ParsedUpdate") raw).map k.applyBatch

theorem rejectionsTold (opened : k.session.document = some d) (done : k.applyBatch b = (.ok r, k')) :
    r.rejections = (validateBatch d.kind k.session.limit b.commands).rejected := by
  simp only [applyBatch, opened] at done
  split at done
  · cases done
    rfl
  · split at done
    · cases done
      rfl
    · unfold applyAccepted at done
      dsimp only at done
      split at done
      · cases done
      · obtain ⟨fresh, k₁, again, last⟩ := afterRefreshDone done
        cases last
        rfl

theorem parsedAgrees (opened : k.session.document = some d) (items : List Json) (summary : Option String) :
    ((∀ j ∈ items, j.isObject = true) →
      k.applyParsed (enveloped items summary) = .ok (k.applyBatch { commands := items, summary })) ∧
    ((∃ j ∈ items, j.isObject = false) → ∃ n rest, Intake.strangers 0 items = n :: rest ∧
      k.applyParsed (enveloped items summary) =
        .error ((n :: rest).map fun n => ⟨[.key "commands", .index n], .notObject⟩)) ∧
    ∀ r k', k.applyBatch { commands := items, summary } = (.ok r, k') → ∀ i raw, items[i]? = some raw →
      BatchCheck.Reported d.kind raw i (r.rejections.filter (·.index = i)) := by
  refine ⟨fun objects => ?_, fun strange => ?_, fun r k' done i raw given => ?_⟩
  · rw [applyParsed, envelopeRead, if_pos (Intake.strangersNone.mpr objects)]
    rfl
  · have some : Intake.strangers 0 items ≠ [] := by
      intro none
      obtain ⟨j, listed, alien⟩ := strange
      rw [Intake.strangersNone.mp none j listed] at alien
      cases alien
    obtain ⟨n, rest, split⟩ := List.exists_cons_of_ne_nil some
    refine ⟨n, rest, split, ?_⟩
    rw [applyParsed, envelopeRead, if_neg some, split]
    rfl
  · have told : BatchCheck.Reported d.kind raw (0 + i)
        ((BatchCheck.scan d.kind k.session.limit 0 0 items).rejected.filter (·.index = 0 + i)) :=
      BatchCheck.reported 0 0 given
    rw [rejectionsTold opened done]
    simpa [validateBatch] using told

def mingled : List Json := [addition, .int 5]

theorem mingledRejected : ∃ r k', blank.applyBatch { commands := mingled } = (.ok r, k') ∧ r.changed = true ∧
    r.rejections = [⟨1, .refused (.malformed (.notRecord "Command"))⟩] ∧
    (k'.store.find? (.numbered 1)).map (·.steps.length) = some 1 := by
  have answer : (blank.applyBatch { commands := mingled }).1.toOption.map (fun r => (r.changed, r.rejections)) =
      some (true, [⟨1, .refused (.malformed (.notRecord "Command"))⟩]) := by cbv
  have stored : ((blank.applyBatch { commands := mingled }).2.store.find? (.numbered 1)).map (·.steps.length) =
      some 1 := by cbv
  obtain ⟨r, k', same, told⟩ := returnsOfMap answer
  obtain ⟨changed, rejections⟩ := Prod.mk.inj told
  rw [same] at stored
  exact ⟨r, k', same, changed, rejections, stored⟩

theorem parsedAgreesLoading :
    blank.applyParsed (enveloped [addition] (some "Loading")) =
      .ok (blank.applyBatch { commands := [addition], summary := some "Loading" }) ∧
    ∃ r k', blank.applyBatch { commands := mingled } = (.ok r, k') ∧
      BatchCheck.Reported .riskAssessment (.int 5) 1 (r.rejections.filter (·.index = 1)) := by
  obtain ⟨r, k', done, -⟩ := mingledRejected
  exact ⟨(parsedAgrees (k := blank) (d := blankCase) rfl [addition] (some "Loading")).1 (by decide), r, k', done,
    (parsedAgrees (k := blank) (d := blankCase) rfl mingled none).2.2 r k' done 1 (.int 5) rfl⟩

theorem parsedAgreesMingled :
    blank.applyParsed (enveloped mingled none) = .error [⟨[.key "commands", .index 1], .notObject⟩] ∧
    ∃ r k', blank.applyBatch { commands := mingled } = (.ok r, k') ∧ r.changed = true ∧
      r.rejections = [⟨1, .refused (.malformed (.notRecord "Command"))⟩] ∧
      (k'.store.find? (.numbered 1)).map (·.steps.length) = some 1 :=
  ⟨rfl, mingledRejected⟩

end Desk
end SafetyCase
