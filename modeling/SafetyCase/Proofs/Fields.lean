import Mathlib.Data.List.Basic
import SafetyCase.Command.Validation
/-! Records and the values under their keys. Whether a record can be read, and what is read, depends on nothing but the values
that stand under its keys; the complaints about a record that cannot be read also name the spelling that was used,
and are left out of account here. -/
namespace SafetyCase
namespace Intake
open Checked (under both)

variable {k : Key} {fields fields' : List (String × Json)} {read read' : Json → Checked α}

theorem Checked.someRead {x : Checked α} {a : α} : x.toOption = some a ↔ x = .ok a := by
  cases x <;> simp [Except.toOption]

theorem Checked.underRead (place : Place) (x : Checked α) : (under place x).toOption = x.toOption := by
  cases x <;> rfl

theorem Checked.bothRead (f : α → β → γ) (x : Checked α) (y : Checked β) :
    (both f x y).toOption = x.toOption.bind fun a => y.toOption.map (f a) := by
  cases x <;> cases y <;> rfl

theorem Checked.mapRead (f : α → β) (x : Checked α) : (x.map f).toOption = x.toOption.map f := by
  cases x <;> rfl

def Key.value? (k : Key) (fields : List (String × Json)) : Option Json := (k.find? fields).map (·.2)

theorem valueLookup (k : Key) (fields : List (String × Json)) :
    k.value? fields = (fields.lookup k.camel <|> fields.lookup k.snake) := by
  unfold Key.value? Key.find?
  cases fields.lookup k.camel with
  | some j => rfl
  | none => cases fields.lookup k.snake <;> rfl

theorem valueWord (name : String) (fields : List (String × Json)) :
    Key.value? ⟨name, name⟩ fields = fields.lookup name := by
  rw [valueLookup]
  cases fields.lookup name <;> rfl

theorem lookupApart {before after : List (String × Json)} {name other : String} (v : Json) (apart : name ≠ other) :
    (before ++ (other, v) :: after).lookup name = (before ++ after).lookup name := by
  have none : (name == other) = false := by simpa using apart
  simp [List.lookup_append, List.lookup_cons, none]

theorem lookupAbsent {fields : List (String × Json)} {name : String} (absent : ∀ f ∈ fields, f.1 ≠ name) :
    fields.lookup name = none := by
  rw [List.lookup_eq_none_iff]
  intro f listed
  simpa using (absent f listed).symm

theorem lookupOnce {before after : List (String × Json)} {name : String} (v : Json)
    (once : ∀ f ∈ before ++ after, f.1 ≠ name) : (before ++ (name, v) :: after).lookup name = some v := by
  have front : before.lookup name = none := lookupAbsent fun f listed => once f (List.mem_append_left _ listed)
  simp [List.lookup_append, front]

theorem valueOnce {key : Key} {before after : List (String × Json)} {used : String} (v : Json)
    (spelling : used = key.camel ∨ used = key.snake)
    (once : ∀ f ∈ before ++ after, f.1 ≠ key.camel ∧ f.1 ≠ key.snake) :
    key.value? (before ++ (used, v) :: after) = some v := by
  rw [valueLookup]
  by_cases camel : used = key.camel
  · rw [camel, lookupOnce v fun f listed => (once f listed).1]
    rfl
  · obtain rfl := spelling.resolve_left camel
    rw [lookupApart v (Ne.symm camel), lookupAbsent fun f listed => (once f listed).1,
      lookupOnce v fun f listed => (once f listed).2]
    rfl

theorem valueNone {key : Key} {fields : List (String × Json)}
    (absent : ∀ f ∈ fields, f.1 ≠ key.camel ∧ f.1 ≠ key.snake) : key.value? fields = none := by
  rw [valueLookup, lookupAbsent fun f listed => (absent f listed).1, lookupAbsent fun f listed => (absent f listed).2]
  rfl

theorem valueApart {key : Key} {before after : List (String × Json)} {other : String} (v : Json)
    (camel : key.camel ≠ other) (snake : key.snake ≠ other) :
    key.value? (before ++ (other, v) :: after) = key.value? (before ++ after) := by
  rw [valueLookup, valueLookup, lookupApart v camel, lookupApart v snake]

theorem optionalValue (k : Key) (fields : List (String × Json)) (default : α) (read : Json → Checked α) :
    (optional k fields default read).toOption = match k.value? fields with
      | none => some default
      | some j => (read j).toOption := by
  unfold optional Key.value?
  cases k.find? fields with
  | none => rfl
  | some f => exact Checked.underRead _ _

theorem requiredValue (k : Key) (fields : List (String × Json)) (read : Json → Checked α) :
    (required k fields read).toOption = (k.value? fields).bind fun j => (read j).toOption := by
  unfold required Key.value?
  cases k.find? fields with
  | none => rfl
  | some f => exact Checked.underRead _ _

theorem nullableValue (read : Json → Checked α) (j : Json) :
    (nullable read j).toOption = if j = .null then some none else (read j).toOption.map some := by
  cases j with
  | null => rfl
  | _ => simp only [nullable]; split <;> simp_all [Except.toOption]

def Agree (keys : List Key) (fields fields' : List (String × Json)) : Prop :=
  ∀ k ∈ keys, k.value? fields = k.value? fields'

theorem Agree.refl (keys : List Key) (fields : List (String × Json)) : Agree keys fields fields := fun _ _ => rfl

def Apart (keys : List Key) : Prop :=
  ∀ a ∈ keys, ∀ b ∈ keys, a ≠ b → a.camel ≠ b.camel ∧ a.camel ≠ b.snake ∧ a.snake ≠ b.camel ∧ a.snake ≠ b.snake

instance (keys : List Key) : Decidable (Apart keys) := by unfold Apart; infer_instance

end Intake
open Intake (Key Agree Apart)

def Location.keys : List Key :=
  [⟨"stepId", "step_id"⟩, ⟨"stepIndex", "step_index"⟩, ⟨"hazardId", "hazard_id"⟩, ⟨"hazardIndex", "hazard_index"⟩,
    ⟨"actionId", "action_id"⟩, ⟨"controlId", "control_id"⟩, ⟨"insertAfter", "insert_after"⟩]

def Question.keys : List Key := [⟨"clarificationPrompt", "clarification_prompt"⟩, ⟨"question", "question"⟩]

def Assessment.keys : List Key :=
  [⟨"severity", "severity"⟩, ⟨"likelihood", "likelihood"⟩, ⟨"assessmentType", "assessment_type"⟩]

def EntityType.keys (t : EntityType) : List Key := t.form.map (·.key)

def Payload.keys (k : Kind) : Intent → Target → List Key
  | .clarify, _ => Question.keys
  | _, .multiple => [⟨"commands", "commands"⟩]
  | .reorder, _ => [⟨"orderedIds", "ordered_ids"⟩]
  | _, .assessment => Assessment.keys
  | .delete, _ => []
  | _, target => ((target.entityType? k).map EntityType.keys).getD []

def Draft.keys : List Key :=
  [⟨"intent", "intent"⟩, ⟨"target", "target"⟩, ⟨"location", "location"⟩, ⟨"data", "data"⟩, ⟨"explanation", "explanation"⟩]

theorem keysApart (k : Kind) (i : Intent) (t : Target) : Apart (Payload.keys k i t) := by
  cases k <;> cases i <;> cases t <;> decide

variable {fields fields' : List (String × Json)}

theorem Location.readAgree (agree : Agree Location.keys fields fields') (wrong : Intake.Complaint) :
    (Location.read wrong (.object fields)).toOption = (Location.read wrong (.object fields')).toOption := by
  simp (disch := decide) only [Location.read, Intake.Checked.bothRead, Intake.optionalValue, agree _]

theorem Question.readAgree (agree : Agree Question.keys fields fields') :
    (Question.read fields).toOption = (Question.read fields').toOption := by
  simp (disch := decide) only [Question.read, Intake.Checked.bothRead, Intake.optionalValue, agree _]

theorem Assessment.readAgree (agree : Agree Assessment.keys fields fields') :
    (Assessment.read fields).toOption = (Assessment.read fields').toOption := by
  simp (disch := decide) only [Assessment.read, Intake.Checked.bothRead, Intake.optionalValue, agree _]

theorem readFormAgree {form : List FormField} (agree : Agree (form.map (·.key)) fields fields') :
    (readForm form fields).toOption = (readForm form fields').toOption := by
  induction form with
  | nil => rfl
  | cons f rest ih =>
    obtain ⟨first, others⟩ := List.forall_mem_cons.mp (List.forall_mem_map.mp agree)
    simp only [readForm, Intake.Checked.bothRead, FormField.read, Intake.Checked.mapRead, Intake.optionalValue, first,
      ih (List.forall_mem_map.mpr others)]

theorem Payload.formAgree (k : Kind) (t : Target)
    (agree : Agree (((t.entityType? k).map EntityType.keys).getD []) fields fields') :
    (match t.entityType? k with
      | some type => (readForm type.form fields).map fun changes => some (Payload.fields type changes)
      | none => .ok none).toOption =
    (match t.entityType? k with
      | some type => (readForm type.form fields').map fun changes => some (Payload.fields type changes)
      | none => .ok none).toOption := by
  cases type : t.entityType? k with
  | none => rfl
  | some type' =>
    rw [type] at agree
    simp only [Intake.Checked.mapRead, readFormAgree agree]

theorem Payload.readAgree {k : Kind} {i : Intent} {t : Target} (single : t ≠ .multiple)
    (agree : Agree (Payload.keys k i t) fields fields') :
    (Payload.read k i t fields).toOption = (Payload.read k i t fields').toOption := by
  cases i with
  | clarify => simp only [Payload.read, Intake.Checked.mapRead, Question.readAgree agree]
  | reorder =>
    have ordered : Agree [⟨"orderedIds", "ordered_ids"⟩] fields fields' := by
      cases t <;> first | exact agree | contradiction
    simp (disch := decide) only [Payload.read, readOrder, Intake.Checked.mapRead, Intake.requiredValue, ordered _]
  | delete =>
    cases t with
    | assessment => simp only [Payload.read, Intake.Checked.mapRead, Assessment.readAgree agree]
    | _ => rfl
  | add | insert | modify =>
    cases t with
    | multiple => contradiction
    | assessment => simp only [Payload.read, Intake.Checked.mapRead, Assessment.readAgree agree]
    | step => exact formAgree k .step agree
    | hazard => exact formAgree k .hazard agree
    | control => exact formAgree k .control agree
    | action => exact formAgree k .action agree

end SafetyCase
