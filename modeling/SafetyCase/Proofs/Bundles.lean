import SafetyCase.Proofs.Clarification
/-! Compound commands and their parts. A list of commands is read twice: first as a whole, where every item
has to be an object, and then item by item, where what is not accepted is left out. Among objects the parts
of a compound command are therefore the items that are accepted by themselves; a single item that is no
object turns the whole command down. -/
namespace SafetyCase

def Json.isObject : Json → Bool
  | .object _ => true
  | _ => false

namespace Intake

def strangers (i : Nat) (items : List Json) : List Nat :=
  ((items.zipIdx i).filter fun item => !item.1.isObject).map (·.2)

theorem strangersCons (i : Nat) (j : Json) (rest : List Json) :
    strangers i (j :: rest) = if j.isObject then strangers (i + 1) rest else i :: strangers (i + 1) rest := by
  unfold strangers
  cases object : j.isObject <;> simp [List.zipIdx_cons, object]

theorem strangersNone {i : Nat} {items : List Json} : strangers i items = [] ↔ ∀ j ∈ items, j.isObject = true := by
  induction items generalizing i with
  | nil => simp [strangers]
  | cons j rest ih =>
    rw [strangersCons]
    cases object : j.isObject <;> simp [object, ih]

theorem objectItems (i : Nat) (items : List Json) :
    itemsFrom (fun j => (object j).map .object) i items =
      if strangers i items = [] then .ok items
      else .error ((strangers i items).map fun n => ⟨[.index n], .notObject⟩) := by
  induction items generalizing i with
  | nil => rfl
  | cons j rest ih =>
    rw [itemsFrom, ih, strangersCons]
    cases j with
    | object fields =>
      by_cases none : strangers (i + 1) rest = [] <;>
        simp [Json.isObject, none, Intake.object, Except.map, Checked.under, Checked.both]
    | _ =>
      by_cases none : strangers (i + 1) rest = [] <;>
        simp [Json.isObject, none, Intake.object, Except.map, Checked.under, Checked.both, Checked.fail]

theorem filledObjectItems (items : List Json) :
    filledObjects (.list items) =
      if items = [] then Checked.fail .emptyList
      else if strangers 0 items = [] then .ok items
      else .error ((strangers 0 items).map fun n => ⟨[.index n], .notObject⟩) := by
  rw [filledObjects, filledList, list, objectItems]
  cases items with
  | nil => rfl
  | cons j rest => by_cases none : strangers 0 (j :: rest) = [] <;> simp [none]

end Intake

def alone? (k : Kind) (raw : Json) : Option Command :=
  match validate k raw with
  | .ok c => if c.isClarification || c.target = .multiple then none else some c
  | .error _ => none

theorem partAlone (k : Kind) (raw : Json) : alone? k raw = (part? k raw).map Command.single := by
  unfold alone? validate part?
  cases readDraft raw with
  | error refusal => rfl
  | ok d =>
    by_cases asks : d.intent = .clarify
    · simp [asks, Command.isClarification, Command.single, (Draft.questionForm asks).1]
    by_cases compound : d.target = .multiple
    · cases made : d.compound k with
      | error refusal => simp [asks, compound, made]
      | ok c => simp [asks, compound, made, (Draft.compoundParts made).1]
    · cases made : d.toEdit k with
      | error refusal => simp [asks, compound, made]
      | ok e =>
        have accepted := Draft.accepted made
        simp [asks, compound, made, Command.isClarification, Command.single, accepted.intent, accepted.target]

theorem compoundRead {k : Kind} {raw : Json} {d : Draft} {items : List Json} (read : readDraft raw = .ok d)
    (tells : d.intent ≠ .clarify) (compound : d.target = .multiple)
    (lists : d.given.lookup "commands" = some (.list items)) :
    validate k raw =
      if items = [] ∨ Intake.strangers 0 items ≠ [] then .error .noCommands
      else if items.filterMap (part? k) = [] then .error .noValidCommand
      else .ok { d.edit none with parts := items.filterMap (part? k) } := by
  have found : Intake.Key.find? ⟨"commands", "commands"⟩ d.given = some ("commands", .list items) := by
    simp [Intake.Key.find?, lists]
  simp only [validate, read, if_neg tells, if_pos compound, Draft.compound, Intake.required, found,
    Intake.filledObjectItems]
  by_cases empty : items = []
  · simp [empty, Intake.Checked.fail, Intake.Checked.under]
  by_cases none : Intake.strangers 0 items = []
  · simp only [empty, none, if_true, if_false, Intake.Checked.under, ne_eq, not_true_eq_false, or_self]
    cases items.filterMap (part? k) <;> simp
  · simp [empty, none, Intake.Checked.under]

/-- A compound command is accepted exactly when all that it lists are objects and one of them is accepted by itself. Its
parts are then the listed commands that are accepted by themselves, in the order of the list. -/
theorem bundleAccepted {k : Kind} {raw : Json} {d : Draft} {items : List Json} (read : readDraft raw = .ok d)
    (tells : d.intent ≠ .clarify) (compound : d.target = .multiple)
    (lists : d.given.lookup "commands" = some (.list items)) :
    ((∃ c, validate k raw = .ok c) ↔
      (∀ j ∈ items, j.isObject = true) ∧ ∃ j ∈ items, (alone? k j).isSome = true) ∧
    (∀ c, validate k raw = .ok c →
      c = { d.edit none with parts := c.parts } ∧ c.parts.map Command.single = items.filterMap (alone? k)) ∧
    ∀ refusal, validate k raw = .error refusal → refusal =
      if items ≠ [] ∧ ∀ j ∈ items, j.isObject = true then .noValidCommand else .noCommands := by
  have parts : items.filterMap (alone? k) = (items.filterMap (part? k)).map Command.single := by
    rw [List.map_filterMap]
    exact congrArg (items.filterMap ·) (funext (partAlone k))
  have filled : items.filterMap (part? k) ≠ [] ↔ ∃ j ∈ items, (alone? k j).isSome = true := by
    simp [List.filterMap_eq_nil_iff, partAlone, Option.isSome_iff_ne_none]
  simp only [compoundRead read tells compound lists, ← filled, ← Intake.strangersNone (i := 0), parts]
  by_cases empty : items = []
  · simp [empty]
  by_cases clean : Intake.strangers 0 items = []
  · by_cases useless : items.filterMap (part? k) = [] <;> simp [empty, clean, useless]
  · simp [clean]

def gathered (items : List Json) : Json := worded "ADD" "MULTIPLE" [] [("commands", .list items)]

theorem gatheredRead (items : List Json) : ∃ d, readDraft (gathered items) = .ok d ∧ d.intent = .add ∧
    d.target = .multiple ∧ d.given.lookup "commands" = some (.list items) :=
  ⟨⟨.add, .multiple, some {}, some [("commands", .list items)], ""⟩, rfl, rfl, rfl, rfl⟩

theorem bundleAcceptedThinned : ∃ c, validate .riskAssessment
    (gathered [worded "DELETE" "STEP" [] [], Desk.addition, worded "CLARIFY" "STEP" [] []]) = .ok c ∧
      c.parts.map Command.single = (alone? .riskAssessment Desk.addition).toList ∧ c.parts.length = 1 := by
  obtain ⟨d, read, intent, target, lists⟩ :=
    gatheredRead [worded "DELETE" "STEP" [] [], Desk.addition, worded "CLARIFY" "STEP" [] []]
  obtain ⟨accepted, kept, -⟩ :=
    bundleAccepted (k := .riskAssessment) read (by rw [intent]; decide) target lists
  obtain ⟨c, done⟩ := accepted.mpr ⟨by decide, Desk.addition, by decide, by decide +kernel⟩
  have parts := (kept c done).2
  have only : [worded "DELETE" "STEP" [] [], Desk.addition, worded "CLARIFY" "STEP" [] []].filterMap
      (alone? .riskAssessment) = (alone? .riskAssessment Desk.addition).toList := by decide +kernel
  rw [only] at parts
  have one := congrArg List.length parts
  rw [List.length_map] at one
  exact ⟨c, done, parts, one.trans (by decide +kernel)⟩

theorem bundleAcceptedSpoiled : ∃ d, readDraft (gathered [Desk.addition, .int 5]) = .ok d ∧ d.intent ≠ .clarify ∧
    d.target = .multiple ∧ d.given.lookup "commands" = some (.list [Desk.addition, .int 5]) ∧
    (alone? .riskAssessment Desk.addition).isSome = true ∧
    validate .riskAssessment (gathered [Desk.addition, .int 5]) = .error .noCommands := by
  obtain ⟨d, read, intent, target, lists⟩ := gatheredRead [Desk.addition, .int 5]
  exact ⟨d, read, by rw [intent]; decide, target, lists, by decide +kernel, by cbv⟩

end SafetyCase
