import Mathlib.Data.List.Nodup
import SafetyCase.Proofs.Dates
import SafetyCase.Proofs.Fields
import SafetyCase.Proofs.Returns
/-! Reading twice. What was read of a location, of the data of an edit, or of a rating is written out again under the names
of its fields; read once more, it is the same. So nothing that reading tidies up is left for a second reading. -/
namespace SafetyCase

namespace Decimal

theorem digitsFilled (n : Nat) : digitsOf n ≠ [] := Nat.toDigits_ne_nil

theorem intFilled (n : Int) : intText n ≠ "" := fun empty => by
  have none := congrArg String.toList empty
  simp [intText, digitsFilled] at none

theorem magnitudeFilled (style : Style) (x : Binary) : magnitude style x ≠ [] := by
  unfold magnitude
  split
  · simp
  · dsimp only
    split
    · unfold positional
      split <;> simp
    · simp [scientific]

theorem floatFilled (x : Binary) : x.text ≠ "" := fun empty => by
  have none := congrArg String.toList empty
  simp [Binary.text, magnitudeFilled] at none

end Decimal

namespace Intake

variable {α : Type} {k : Key} {fields : List (String × Json)}

inductive Spelling where
  | camel | snake

def Key.spelt (k : Key) : Spelling → String
  | .camel => k.camel
  | .snake => k.snake

def record (spelling : Spelling) (entries : List (Key × Option Json)) : List (String × Json) :=
  entries.filterMap fun e => e.2.map (e.1.spelt spelling, ·)

theorem speltEither (k : Key) (spelling : Spelling) : k.spelt spelling = k.camel ∨ k.spelt spelling = k.snake := by
  cases spelling with
  | camel => exact .inl rfl
  | snake => exact .inr rfl

theorem recordNames {spelling : Spelling} {entries : List (Key × Option Json)} {f : String × Json}
    (listed : f ∈ record spelling entries) : ∃ e ∈ entries, f.1 = e.1.spelt spelling := by
  obtain ⟨e, among, given⟩ := List.mem_filterMap.mp listed
  obtain ⟨j, _, rfl⟩ := Option.map_eq_some_iff.mp given
  exact ⟨e, among, rfl⟩

theorem recordValue (spelling : Spelling) {keys : List Key} {entries : List (Key × Option Json)}
    (names : entries.map (·.1) = keys) (apart : Apart keys) (distinct : keys.Nodup) {v : Option Json}
    (listed : (k, v) ∈ entries) : k.value? (record spelling entries) = v := by
  obtain ⟨before, after, rfl⟩ := List.append_of_mem listed
  have others : ∀ f ∈ record spelling before ++ record spelling after, f.1 ≠ k.camel ∧ f.1 ≠ k.snake := by
    intro f among
    obtain ⟨e, inside, name⟩ : ∃ e ∈ before ++ after, f.1 = e.1.spelt spelling := by
      rw [record, record, ← List.filterMap_append] at among
      exact recordNames among
    have other : e.1 ≠ k := fun same => by
      rw [← names, List.map_append, List.map_cons, List.nodup_middle, ← List.map_append] at distinct
      exact (List.nodup_cons.mp distinct).1 (List.mem_map.mpr ⟨e, inside, same⟩)
    have known : e.1 ∈ keys := by
      rw [← names]
      exact List.mem_map_of_mem (List.perm_middle.mem_iff.mpr (List.mem_cons_of_mem _ inside))
    have own : k ∈ keys := names ▸ List.mem_map.mpr ⟨_, listed, rfl⟩
    obtain ⟨camels, camelSnake, snakeCamel, snakes⟩ := apart e.1 known k own other
    rw [name]
    rcases speltEither e.1 spelling with spelt | spelt
    · exact spelt ▸ ⟨camels, camelSnake⟩
    · exact spelt ▸ ⟨snakeCamel, snakes⟩
  have split : record spelling (before ++ (k, v) :: after) =
      record spelling before ++ ((v.map (k.spelt spelling, ·)).toList ++ record spelling after) := by
    simp only [record, List.filterMap_append, List.filterMap_cons]
    cases v <;> rfl
  rw [split]
  cases v with
  | none => exact valueNone others
  | some j => exact valueOnce j (speltEither k spelling) others

theorem optionalAgain {read : Json → Checked (Option α)} (write : α → Json) {given : Option α}
    (value : k.value? fields = given.map write) (again : ∀ a ∈ given, read (write a) = .ok (some a)) :
    optional k fields none read = .ok given := by
  rw [← Checked.someRead, optionalValue, value]
  cases given with
  | none => rfl
  | some a => simp [again a rfl, Except.toOption]

theorem nullableAgain {read : Json → Checked α} {j : Json} {a : α} (filled : j ≠ .null) (again : read j = .ok a) :
    nullable read j = .ok (some a) := by
  rw [← Checked.someRead, nullableValue, if_neg filled, again]
  rfl

theorem natAgain (i : Nat) : nat (.int i) = .ok i := by
  have counted : ¬ (i : Int) < 0 := by omega
  simp [nat, int, counted]

theorem itemsAgain {read : Json → Checked α} (write : α → Json) (again : ∀ a, read (write a) = .ok a) (i : Nat)
    (items : List α) : itemsFrom read i (items.map write) = .ok items := by
  induction items generalizing i with
  | nil => rfl
  | cons a rest ih =>
    rw [List.map_cons, itemsFrom, again, ih]
    rfl

end Intake
open Intake (Checked Key Apart optionalAgain nullableAgain itemsAgain)

namespace Location

variable {l : Location} {wrong : Intake.Complaint}

def references (l : Location) : List (Option String) := [l.stepId, l.hazardId, l.actionId, l.controlId, l.insertAfter]

theorem referenceFilled (j : Json) : reference? j ≠ some "" := by
  cases j with
  | null => simp [reference?]
  | bool b => cases b <;> decide
  | int n => simpa [reference?, Json.literal] using Decimal.intFilled n
  | float x => simpa [reference?, Json.literal] using Decimal.floatFilled x
  | text s => simp [reference?]
  | list items =>
    intro empty
    have none := congrArg String.toList (Option.some.inj empty)
    simp [Json.literal] at none
  | object fields =>
    intro empty
    have none := congrArg String.toList (Option.some.inj empty)
    simp [Json.literal] at none

theorem givenFilled {k : Key} {fields : List (String × Json)} {r : Option String}
    (done : Intake.optional k fields none reference = .ok r) : r ≠ some "" := by
  rw [← Checked.someRead, Intake.optionalValue] at done
  split at done
  · cases done
    simp
  · rename_i j _
    cases done
    exact referenceFilled j

theorem readFilled {j : Json} (done : read wrong j = .ok l) : ∀ r ∈ l.references, r ≠ some "" := by
  cases j with
  | object fields =>
    simp only [read, Checked.bothOkIff] at done
    obtain ⟨_, _, ⟨_, _, ⟨_, _, ⟨_, _, ⟨_, _, ⟨_, _, step, _, rfl⟩, hazard, rfl⟩, _, rfl⟩, action, rfl⟩, control, rfl⟩,
      after, rfl⟩ := done
    simp only [references, List.forall_mem_cons]
    exact ⟨givenFilled step, givenFilled hazard, givenFilled action, givenFilled control, givenFilled after,
      List.forall_mem_nil _⟩
  | _ => contradiction

theorem placeFilled {k : Key} {fields : List (String × Json)} {place : Option Location}
    (done : Intake.optional k fields none (Intake.nullable (read wrong)) = .ok place) :
    ∀ r ∈ (place.getD {}).references, r ≠ some "" := by
  -- a location that is absent, or null, has no references
  have absent : ∀ r ∈ references {}, r ≠ some "" := by decide
  rw [← Checked.someRead, Intake.optionalValue] at done
  split at done
  · cases done
    exact absent
  · rename_i j _
    rw [Intake.nullableValue] at done
    split at done
    · cases done
      exact absent
    · obtain ⟨l, found, rfl⟩ := Option.map_eq_some_iff.mp done
      exact readFilled (Checked.someRead.mp found)

def entries (l : Location) : List (Key × Option Json) :=
  keys.zip [l.stepId.map .text, l.stepIndex.map fun i : Nat => .int i, l.hazardId.map .text,
    l.hazardIndex.map fun i : Nat => .int i, l.actionId.map .text, l.controlId.map .text, l.insertAfter.map .text]

theorem entryKeys (l : Location) : l.entries.map (·.1) = keys := rfl

def fields (l : Location) : List (String × Json) := Intake.record .camel l.entries

theorem readAgain (filled : ∀ r ∈ l.references, r ≠ some "") : read wrong (.object l.fields) = .ok l := by
  have value {k : Key} {v : Option Json} (listed : (k, v) ∈ l.entries) : k.value? l.fields = v :=
    Intake.recordValue .camel l.entryKeys (by decide) (by decide) listed
  have word {k : Key} {r : Option String} (listed : (k, r.map Json.text) ∈ l.entries) (given : r ∈ l.references) :
      Intake.optional k l.fields none reference = .ok r := by
    refine optionalAgain .text (value listed) fun s among => ?_
    have some : s ≠ "" := fun empty => filled r given (by rw [Option.mem_def.mp among, empty])
    simp [reference, reference?, some]
  have place {k : Key} {n : Option Nat} (listed : (k, n.map fun i : Nat => Json.int i) ∈ l.entries) :
      Intake.optional k l.fields none index = .ok n :=
    optionalAgain _ (value listed) fun i _ => nullableAgain (by simp) (Intake.natAgain i)
  have stepId : Intake.optional ⟨"stepId", "step_id"⟩ l.fields none reference = .ok l.stepId :=
    word (by simp [entries, keys]) (by simp [references])
  have stepIndex : Intake.optional ⟨"stepIndex", "step_index"⟩ l.fields none index = .ok l.stepIndex :=
    place (by simp [entries, keys])
  have hazardId : Intake.optional ⟨"hazardId", "hazard_id"⟩ l.fields none reference = .ok l.hazardId :=
    word (by simp [entries, keys]) (by simp [references])
  have hazardIndex : Intake.optional ⟨"hazardIndex", "hazard_index"⟩ l.fields none index = .ok l.hazardIndex :=
    place (by simp [entries, keys])
  have actionId : Intake.optional ⟨"actionId", "action_id"⟩ l.fields none reference = .ok l.actionId :=
    word (by simp [entries, keys]) (by simp [references])
  have controlId : Intake.optional ⟨"controlId", "control_id"⟩ l.fields none reference = .ok l.controlId :=
    word (by simp [entries, keys]) (by simp [references])
  have insertAfter : Intake.optional ⟨"insertAfter", "insert_after"⟩ l.fields none reference = .ok l.insertAfter :=
    word (by simp [entries, keys]) (by simp [references])
  simp only [read, stepId, stepIndex, hazardId, hazardIndex, actionId, controlId, insertAfter, Checked.both]

end Location

namespace Question

theorem readAgain (q : Question) : read q.changes = .ok q := by
  obtain ⟨prompt, question⟩ := q
  cases prompt <;> cases question <;> rfl

end Question

namespace Assessment

theorem severityAgain (s : Severity) : severityOf (.text s.code) = .ok s := by
  unfold severityOf
  rw [Rating.readSeverityCode]

theorem likelihoodAgain (l : Likelihood) : likelihoodOf (.text l.code) = .ok l := by
  unfold likelihoodOf
  rw [Rating.readLikelihoodCode]

theorem slotAgain (s : RatingSlot) : RatingSlot.read (.text s.name) = .ok s := by cases s <;> rfl

def entries (a : Assessment) : List (Key × Option Json) :=
  keys.zip [a.severity.map fun s => .text s.code, a.likelihood.map fun l => .text l.code, a.slot.map fun s => .text s.name]

theorem entryKeys (a : Assessment) : a.entries.map (·.1) = keys := rfl

theorem changesEntries (a : Assessment) : a.changes = Intake.record .snake a.entries := by
  obtain ⟨severity, likelihood, slot⟩ := a
  cases severity <;> cases likelihood <;> cases slot <;> rfl

theorem readAgain (a : Assessment) : read a.changes = .ok a := by
  have value {k : Key} {v : Option Json} (listed : (k, v) ∈ a.entries) : k.value? a.changes = v := by
    rw [changesEntries]
    exact Intake.recordValue .snake a.entryKeys (by decide) (by decide) listed
  have severity : Intake.optional ⟨"severity", "severity"⟩ a.changes none (Intake.nullable severityOf) =
      .ok a.severity := by
    refine optionalAgain (fun s => .text s.code) (value (by simp [entries, keys])) fun s _ => ?_
    exact nullableAgain (by simp) (severityAgain s)
  have likelihood : Intake.optional ⟨"likelihood", "likelihood"⟩ a.changes none (Intake.nullable likelihoodOf) =
      .ok a.likelihood := by
    refine optionalAgain (fun l => .text l.code) (value (by simp [entries, keys])) fun l _ => ?_
    exact nullableAgain (by simp) (likelihoodAgain l)
  have slot : Intake.optional ⟨"assessmentType", "assessment_type"⟩ a.changes none (Intake.nullable RatingSlot.read) =
      .ok a.slot := by
    refine optionalAgain (fun s => .text s.name) (value (by simp [entries, keys])) fun s _ => ?_
    exact nullableAgain (by simp) (slotAgain s)
  simp only [read, severity, likelihood, slot, Checked.both]

end Assessment

namespace FieldShape

def Spelt : FieldShape → Prop
  | choice options => ∀ o ∈ options, Text.keyword o = o
  | _ => True

instance : DecidablePred Spelt
  | choice options => inferInstanceAs (Decidable (∀ o ∈ options, Text.keyword o = o))
  | text | filledText | texts | flag | date => .isTrue trivial

theorem readAgain {shape : FieldShape} {j v : Json} (spelt : shape.Spelt) (done : shape.read j = .ok v) :
    v ≠ .null ∧ shape.read v = .ok v := by
  cases shape with
  | text =>
    obtain ⟨s, _, rfl⟩ := okOfMap done
    exact ⟨by simp, rfl⟩
  | filledText =>
    obtain ⟨s, read, rfl⟩ := okOfMap done
    have filled : s ≠ "" := by
      unfold Intake.filledText at read
      split at read
      · split at read
        · contradiction
        · cases read
          assumption
      · contradiction
    exact ⟨by simp, by simp [FieldShape.read, Intake.filledText, filled, Except.map]⟩
  | texts =>
    obtain ⟨items, _, rfl⟩ := okOfMap done
    refine ⟨by simp, ?_⟩
    rw [FieldShape.read, itemTexts, Intake.list, itemsAgain .text fun s => rfl]
    · rfl
    · simp
  | flag =>
    obtain ⟨b, _, rfl⟩ := okOfMap done
    exact ⟨by simp, rfl⟩
  | date =>
    obtain ⟨d, read, rfl⟩ := okOfMap done
    have valid : d.Valid := by
      unfold Intake.date at read
      split at read
      · rename_i found
        cases read
        exact Date.readValid found
      · contradiction
    exact ⟨by simp, by simp [FieldShape.read, Intake.date, Date.ofJson, Date.textRead valid, Except.map]⟩
  | choice options =>
    obtain ⟨s, read, rfl⟩ := okOfMap done
    have option : s ∈ options := by
      unfold Intake.member at read
      split at read
      · split at read
        · rename_i found
          cases read
          dsimp only at found
          split at found
          · cases found
            simpa using ‹options.contains _ = true›
          · contradiction
        · contradiction
      · contradiction
    exact ⟨by simp, by simp [FieldShape.read, Intake.member, Intake.asKeyword, spelt s option, option, Except.map]⟩

end FieldShape

namespace FormField

def slot (f : FormField) (fields : List (String × Json)) : Option Json :=
  (Intake.optional f.key fields none (Intake.nullable f.shape.read)).toOption.join

variable {f : FormField} {fields : List (String × Json)}

theorem slotAgain {v : Json} (spelt : f.shape.Spelt) (given : f.slot fields = some v) :
    Intake.nullable f.shape.read v = .ok (some v) := by
  rw [slot, Intake.optionalValue] at given
  split at given
  · contradiction
  · rename_i j _
    rw [Intake.nullableValue] at given
    split at given
    · contradiction
    · cases read : f.shape.read j with
      | error issues =>
        rw [read] at given
        contradiction
      | ok v' =>
        rw [read] at given
        cases given
        obtain ⟨filled, again⟩ := FieldShape.readAgain spelt read
        exact nullableAgain filled again

end FormField

variable {form : List FormField} {fields : List (String × Json)} {cs : List (Attribute × Json)}

theorem formSlots (done : readForm form fields = .ok cs) :
    cs = form.filterMap (fun f => (f.slot fields).map (f.sets, ·)) ∧
      ∀ f ∈ form, f.read fields = .ok ((f.slot fields).map (f.sets, ·)).toList := by
  induction form generalizing cs with
  | nil =>
    cases done
    exact ⟨rfl, List.forall_mem_nil _⟩
  | cons f rest ih =>
    obtain ⟨first, others, read, readRest, rfl⟩ := Checked.bothOkIff.mp done
    obtain ⟨rfl, each⟩ := ih readRest
    obtain ⟨v, found, rfl⟩ := okOfMap read
    have same : f.slot fields = v := by
      rw [FormField.slot, found]
      rfl
    rw [← same] at read ⊢
    refine ⟨?_, List.forall_mem_cons.mpr ⟨read, each⟩⟩
    rw [List.filterMap_cons]
    cases f.slot fields <;> rfl

theorem readFormSame {fields' : List (String × Json)} (same : ∀ f ∈ form, f.read fields' = f.read fields) :
    readForm form fields' = readForm form fields := by
  induction form with
  | nil => rfl
  | cons f rest ih =>
    obtain ⟨first, others⟩ := List.forall_mem_cons.mp same
    rw [readForm, readForm, first, ih others]

namespace EntityType

theorem formSpelt (t : EntityType) : ∀ f ∈ t.form, f.shape.Spelt ∧ f.key.snake = f.sets.name := by
  cases t <;> decide +kernel

theorem keysDistinct (t : EntityType) : Apart t.keys ∧ t.keys.Nodup := by
  cases t <;> decide

theorem formAgain {t : EntityType} (done : readForm t.form fields = .ok cs) :
    readForm t.form (cs.map fun c => (c.1.name, c.2)) = .ok cs := by
  obtain ⟨slots, each⟩ := formSlots done
  have written : cs.map (fun c => (c.1.name, c.2)) =
      Intake.record .snake (t.form.map fun f => (f.key, f.slot fields)) := by
    rw [slots, Intake.record, List.map_filterMap, List.filterMap_map]
    refine List.filterMap_congr fun f listed => ?_
    simp [Key.spelt, (t.formSpelt f listed).2, Function.comp_def]
  rw [written, ← done]
  refine readFormSame fun f listed => ?_
  obtain ⟨apart, distinct⟩ := t.keysDistinct
  have entry : (f.key, f.slot fields) ∈ t.form.map fun f => (f.key, f.slot fields) := List.mem_map_of_mem listed
  have names : (t.form.map fun f => (f.key, f.slot fields)).map (·.1) = t.keys := List.map_map
  have value := Intake.recordValue .snake names apart distinct entry
  have again := optionalAgain id (value.trans (congrFun Option.map_id _).symm) fun v given =>
    FormField.slotAgain (t.formSpelt f listed).1 given
  rw [each f listed, FormField.read, again]
  rfl

end EntityType

namespace Payload

variable {k : Kind} {i : Intent} {t : Target} {payload : Option Payload}

theorem orderAgain {ids : List String} (done : readOrder fields = .ok ids) :
    readOrder [("ordered_ids", .list (ids.map .text))] = .ok ids := by
  obtain ⟨j, read⟩ := Intake.requiredRead done
  have filled := Intake.filledSome read
  have items : Intake.itemsFrom (fun j => .ok j.plain) 0 (ids.map .text) = .ok ids :=
    itemsAgain .text (fun _ => rfl) 0 ids
  have found : Key.value? ⟨"orderedIds", "ordered_ids"⟩ [("ordered_ids", .list (ids.map .text))] =
      some (.list (ids.map .text)) := by
    rw [Intake.valueLookup]
    rfl
  rw [← Checked.someRead, readOrder, Intake.requiredValue, found, Option.bind_some, Checked.someRead, Intake.filledList,
    Intake.list, items]
  cases ids with
  | nil => contradiction
  | cons id rest => rfl

theorem formAgain (done : (match t.entityType? k with
      | some type => (readForm type.form fields).map fun changes => some (Payload.fields type changes)
      | none => .ok none) = .ok payload) :
    (match t.entityType? k with
      | some type => (readForm type.form ((payload.map (·.changes)).getD [])).map
          fun changes => some (Payload.fields type changes)
      | none => .ok none) = Except.ok payload := by
  cases type : t.entityType? k with
  | none =>
    rw [type] at done
    exact done
  | some type' =>
    rw [type] at done
    obtain ⟨cs, read, rfl⟩ := okOfMap done
    simp [changes, EntityType.formAgain read, Except.map]

theorem ratingAgain (done : ((Assessment.read fields).map fun a => some (assessment a)) = .ok payload) :
    ((Assessment.read ((payload.map (·.changes)).getD [])).map fun a => some (assessment a)) = .ok payload := by
  obtain ⟨a, _, rfl⟩ := okOfMap done
  simp [changes, Assessment.readAgain a, Except.map]

theorem readAgain (done : read k i t fields = .ok payload) :
    read k i t ((payload.map (·.changes)).getD []) = .ok payload := by
  cases i with
  | clarify =>
    obtain ⟨q, _, rfl⟩ := okOfMap done
    simp [read, changes, Question.readAgain q, Except.map]
  | reorder =>
    obtain ⟨ids, order, rfl⟩ := okOfMap (show (readOrder fields).map _ = _ from done)
    simp [read, changes, orderAgain order, Except.map]
  | delete =>
    cases t with
    | assessment => exact ratingAgain done
    | _ => exact done
  | add | insert | modify =>
    cases t with
    | assessment => exact ratingAgain done
    | multiple => exact done
    | step => exact formAgain (t := .step) done
    | hazard => exact formAgain (t := .hazard) done
    | control => exact formAgain (t := .control) done
    | action => exact formAgain (t := .action) done

end Payload
end SafetyCase
