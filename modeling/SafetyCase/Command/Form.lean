import SafetyCase.Document.Entity
import SafetyCase.Intake.Read
/-! The fields that an edit may set, by entity type, and how each is read. A field that is not given, or
given as `null`, sets nothing. -/
namespace SafetyCase
open Intake (Checked Key)

inductive FieldShape where
  | text
  | filledText
  | texts
  | flag
  | date
  | choice (options : List String)
  deriving DecidableEq

namespace FieldShape

def parts (s : String) : List String :=
  let pieces := (Text.replaceChar '\n' ',' s.toList).splitOn ','
  ((pieces.map fun cs => Text.trim Text.isBlank cs).filter (· ≠ [])).map String.ofList

def itemTexts : Json → Checked (List String)
  | .text s => .ok (parts s)
  | j => Intake.list Intake.text j

def read : FieldShape → Json → Checked Json
  | text, j => (Intake.text j).map .text
  | filledText, j => (Intake.filledText j).map .text
  | texts, j => (itemTexts j).map fun items => .list (items.map .text)
  | flag, j => (Intake.flag j).map .bool
  | date, j => (Intake.date j).map fun d => .text d.text
  | choice options, j =>
    (Intake.member options (fun s => if options.contains s then some s else none) (Intake.asKeyword j)).map .text

end FieldShape

structure FormField where
  sets : Attribute
  key : Key
  shape : FieldShape
  deriving DecidableEq

namespace FormField

def word (a : Attribute) (shape : FieldShape) : FormField := ⟨a, ⟨a.name, a.name⟩, shape⟩

def words (a : Attribute) (camel : String) (shape : FieldShape) : FormField := ⟨a, ⟨camel, a.name⟩, shape⟩

def read (f : FormField) (fields : List (String × Json)) : Checked (List (Attribute × Json)) :=
  (Intake.optional f.key fields none (Intake.nullable f.shape.read)).map fun v =>
    (v.map fun j => (f.sets, j)).toList

end FormField

namespace EntityType

def form : EntityType → List FormField
  | .step =>
    [.word .activity .filledText, .word .equipment .texts, .word .substances .texts, .word .description .text]
  | .hazard =>
    [.word .label .filledText, .word .description .text, .words .categoryCode "categoryCode" .text,
      .word .consequence .text, .words .existingControls "existingControls" .texts]
  | .control =>
    [.word .description .filledText,
      .word .hierarchy (.choice ["SUBSTITUTION", "TECHNICAL", "ORGANIZATIONAL", "PPE"])]
  | .action =>
    [.word .description .filledText, .word .owner .text, .words .dueDate "dueDate" .date,
      .word .status (.choice ["OPEN", "IN_PROGRESS", "COMPLETE"])]
  | .timelineEvent =>
    [.word .text .filledText, .words .timeLabel "timeLabel" .text,
      .word .confidence (.choice ["CONFIRMED", "LIKELY", "UNCLEAR"])]
  | .cause => [.word .statement .filledText, .words .isRootCause "isRootCause" .flag]

theorem formSubsetAttributes (t : EntityType) : ∀ f ∈ t.form, f.sets ∈ t.attributes.map (·.1) := by
  cases t <;> decide

end EntityType

def readForm : List FormField → List (String × Json) → Checked (List (Attribute × Json))
  | [], _ => .ok []
  | f :: rest, fields => Checked.both (· ++ ·) (f.read fields) (readForm rest fields)

end SafetyCase
