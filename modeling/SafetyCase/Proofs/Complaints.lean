import SafetyCase.Command.Validation
/-! A reading that fails says why: it names one issue at least. So the first issue of a refused command is a true one,
and the issue that stands in where there is none is never used. -/
namespace SafetyCase
namespace Intake
open Checked (fail under both)

def Told (x : Checked α) : Prop := x ≠ .error []

theorem toldOk (a : α) : Told (.ok a : Checked α) := nofun

theorem toldFail (c : Complaint) : Told (fail c : Checked α) := nofun

theorem toldError {issues : List Issue} : Told (.error issues : Checked α) ↔ issues ≠ [] := by simp [Told]

theorem toldUnder {x : Checked α} (told : Told x) (place : Place) : Told (under place x) := by
  cases x with
  | ok a => exact toldOk a
  | error issues =>
    have some := toldError.mp told
    exact toldError.mpr fun none => some (List.map_eq_nil_iff.mp none)

theorem toldBoth {x : Checked α} {y : Checked β} (first : Told x) (second : Told y) (f : α → β → γ) :
    Told (both f x y) := by
  cases x with
  | ok a =>
    cases y with
    | ok b => exact toldOk _
    | error issues => exact toldError.mpr (toldError.mp second)
  | error issues =>
    have some := toldError.mp first
    cases y with
    | ok b => exact toldError.mpr some
    | error more => exact toldError.mpr fun none => some (List.append_eq_nil_iff.mp none).1

theorem toldMap {x : Checked α} (told : Told x) (f : α → β) : Told (x.map f) := by
  cases x with
  | ok a => exact toldOk _
  | error issues => exact toldError.mpr (toldError.mp told)

section
variable {read : Json → Checked α} (each : ∀ j, Told (read j))
include each

theorem toldOptional (k : Key) (fields : List (String × Json)) (default : α) :
    Told (optional k fields default read) := by
  unfold optional
  split
  · exact toldOk _
  · exact toldUnder (each _) _

theorem toldRequired (k : Key) (fields : List (String × Json)) : Told (required k fields read) := by
  unfold required
  split
  · exact toldUnder (toldFail _) _
  · exact toldUnder (each _) _

theorem toldNullable (j : Json) : Told (nullable read j) := by
  unfold nullable
  split
  · exact toldOk _
  · have told := each j
    split
    · exact toldOk _
    · rename_i failed
      rw [failed] at told
      exact toldError.mpr (toldError.mp told)

theorem toldItems (i : Nat) (items : List Json) : Told (itemsFrom read i items) := by
  induction items generalizing i with
  | nil => exact toldOk _
  | cons j rest ih => exact toldBoth (toldUnder (each j) _) (ih (i + 1)) _

theorem toldList (j : Json) : Told (list read j) := by
  unfold list
  split
  · exact toldItems each 0 _
  · exact toldFail _

theorem toldFilledList (j : Json) : Told (filledList read j) := by
  unfold filledList
  split
  · exact toldFail _
  · exact toldList each j

end

theorem toldText (j : Json) : Told (text j) := by
  unfold text
  split
  · exact toldOk _
  · exact toldFail _

theorem toldFilledText (j : Json) : Told (filledText j) := by
  unfold filledText
  repeat' split
  all_goals first | exact toldOk _ | exact toldFail _

theorem toldObject (j : Json) : Told (object j) := by
  unfold object
  split
  · exact toldOk _
  · exact toldFail _

theorem toldInt (j : Json) : Told (int j) := by
  unfold int
  repeat' split
  all_goals first | exact toldOk _ | exact toldFail _

theorem toldNat (j : Json) : Told (nat j) := by
  have told := toldInt j
  unfold nat
  split
  · split
    · exact toldFail _
    · exact toldOk _
  · rename_i failed
    rw [failed] at told
    exact toldError.mpr (toldError.mp told)

theorem toldFlag (j : Json) : Told (flag j) := by
  unfold flag
  dsimp only
  repeat' split
  all_goals first | exact toldOk _ | exact toldFail _

theorem toldDate (j : Json) : Told (date j) := by
  unfold date
  split
  · exact toldOk _
  · exact toldFail _

theorem toldMember (names : List String) (ofName? : String → Option α) (j : Json) :
    Told (member names ofName? j) := by
  unfold member
  repeat' split
  all_goals first | exact toldOk _ | exact toldFail _

end Intake

open Intake

theorem FieldShape.toldRead (shape : FieldShape) (j : Json) : Told (shape.read j) := by
  cases shape with
  | text => exact toldMap (toldText j) _
  | filledText => exact toldMap (toldFilledText j) _
  | flag => exact toldMap (toldFlag j) _
  | date => exact toldMap (toldDate j) _
  | choice options => exact toldMap (toldMember _ _ _) _
  | texts =>
    refine toldMap ?_ _
    unfold itemTexts
    split
    · exact toldOk _
    · exact toldList toldText _

theorem toldForm (form : List FormField) (given : List (String × Json)) : Told (readForm form given) := by
  induction form with
  | nil => exact toldOk _
  | cons f rest ih => exact toldBoth (toldMap (toldOptional (toldNullable f.shape.toldRead) _ _ _) _) ih _

theorem toldLocation (wrong : Complaint) (j : Json) : Told (Location.read wrong j) := by
  have reference (k : Key) (fields : List (String × Json)) : Told (optional k fields none Location.reference) :=
    toldOptional (fun _ => toldOk _) _ _ _
  have index (k : Key) (fields : List (String × Json)) : Told (optional k fields none Location.index) :=
    toldOptional (toldNullable toldNat) _ _ _
  unfold Location.read
  split
  · refine toldBoth (toldBoth (toldBoth (toldBoth (toldBoth (toldBoth ?_ ?_ _) ?_ _) ?_ _) ?_ _) ?_ _) ?_ _
    all_goals first | exact reference _ _ | exact index _ _
  · exact toldFail _

theorem toldQuestion (given : List (String × Json)) : Told (Question.read given) :=
  toldBoth (toldOptional (toldNullable toldText) _ _ _) (toldOptional (toldNullable toldText) _ _ _) _

theorem toldAssessment (given : List (String × Json)) : Told (Assessment.read given) := by
  have severity (j : Json) : Told (Assessment.severityOf j) := by
    unfold Assessment.severityOf
    split
    · exact toldOk _
    · exact toldFail _
  have likelihood (j : Json) : Told (Assessment.likelihoodOf j) := by
    unfold Assessment.likelihoodOf
    split
    · exact toldOk _
    · exact toldFail _
  have slot (j : Json) : Told (RatingSlot.read j) := by
    unfold RatingSlot.read
    repeat' split
    all_goals first | exact toldOk _ | exact toldFail _
  exact toldBoth (toldBoth (toldOptional (toldNullable severity) _ _ _) (toldOptional (toldNullable likelihood) _ _ _) _)
    (toldOptional (toldNullable slot) _ _ _) _

theorem toldOrder (given : List (String × Json)) : Told (Payload.readOrder given) :=
  toldRequired (toldFilledList fun _ => toldOk _) _ _

theorem toldPayload (k : Kind) (intent : Intent) (target : Target) (given : List (String × Json)) :
    Told (Payload.read k intent target given) := by
  unfold Payload.read
  repeat' split
  · exact toldMap (toldQuestion given) _
  · exact toldMap (toldOrder given) _
  · exact toldMap (toldAssessment given) _
  · exact toldOk _
  · exact toldMap (toldForm _ given) _
  · exact toldOk _

theorem toldDraft (raw : Json) : Told (Draft.read raw) := by
  unfold Draft.read
  split
  · rename_i fields
    have explanation (j : Json) : Told (Draft.readExplanation j) := by
      unfold Draft.readExplanation
      split
      · exact toldOk _
      · exact toldText _
    exact toldBoth (toldBoth (toldRequired (fun j => toldMember _ _ _) _ _) (toldRequired (fun j => toldMember _ _ _) _ _) _)
      (toldBoth (toldOptional (toldNullable (toldLocation _)) _ _ _)
        (toldBoth (toldOptional (toldNullable toldObject) _ _ _) (toldOptional explanation _ _ _) _) _) _
  · exact toldFail _

end SafetyCase
