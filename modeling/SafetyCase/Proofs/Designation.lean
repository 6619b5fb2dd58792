import Mathlib
import SafetyCase.Proofs.Naming
import SafetyCase.Proofs.Refusals
/-! What a location designates, said without the lookups: the entity that an identifier names, else the one at a
position. Changes and deletions reach nothing else, with one exception: an assessment whose location names no hazard
falls back to the first one, as if it were to be added. -/
namespace SafetyCase

namespace Kind

variable {k : Kind} {t : EntityType}

theorem levelsApart (k : Kind) : k.secondLevel ≠ k.topLevel := by cases k <;> decide

theorem controlApart (control : k.control? = some t) : t ≠ k.topLevel ∧ t ≠ k.secondLevel ∧ k.action? ≠ some t := by
  revert control
  cases k <;> cases t <;> decide

theorem actionApart (action : k.action? = some t) : t ≠ k.topLevel ∧ t ≠ k.secondLevel := by
  revert action
  cases k <;> cases t <;> decide

end Kind

def Resolution.entity? (t : EntityType) : Resolution → Option Entity
  | .entity s x => if s = t then some x else none
  | _ => none

theorem resolvedEntity {x : Except ReferenceFault Resolution} {t : EntityType} {e : Entity}
    (addressed : x.toOption.bind (·.entity? t) = some e) : x = .ok (.entity t e) := by
  obtain ⟨r, done, own⟩ := Option.bind_eq_some_iff.mp addressed
  cases x with
  | error => contradiction
  | ok r' =>
    cases done
    cases r <;> simp_all [Resolution.entity?]

namespace Document

inductive TopOf (d : Document) (l : Location) (x : Entity) : Prop where
  | named (named : d.Names d.kind.topLevel l.stepId x)
  | placed {i : Nat} (unnamed : ∀ y, ¬d.Names d.kind.topLevel l.stepId y) (index : l.stepIndex = some i)
      (listed : (d.siblings d.kind.topLevel none)[i]? = some x)

inductive SecondOf (d : Document) (l : Location) (x : Entity) : Prop where
  | named (named : d.Names d.kind.secondLevel l.hazardId x)
  | placed {parent : Entity} {i : Nat} (unnamed : ∀ y, ¬d.Names d.kind.secondLevel l.hazardId y)
      (under : d.TopOf l parent) (index : l.hazardIndex = some i)
      (listed : (d.siblings d.kind.secondLevel (some parent.id))[i]? = some x)

inductive Designates (d : Document) (l : Location) (t : EntityType) (x : Entity) : Prop where
  | top (type : t = d.kind.topLevel) (designated : d.TopOf l x)
  | second (type : t = d.kind.secondLevel) (designated : d.SecondOf l x)
  | control (type : d.kind.control? = some t) (named : d.Names t l.controlId x)
  | action (type : d.kind.action? = some t) (named : d.Names t l.actionId x)

inductive FirstOf (d : Document) (l : Location) (x : Entity) : Prop where
  | ofStep {parent : Entity} (under : d.TopOf l parent)
      (first : (d.siblings d.kind.secondLevel (some parent.id)).head? = some x)
  | ofDocument (free : l.hasStep = false) (first : d.secondLevel.head? = some x)

inductive Addresses (d : Document) (e : Edit) (t : EntityType) (x : Entity) : Prop where
  | designated (type : e.target.entityType? d.kind = some t) (designated : d.Designates e.location t x)
  | first (rates : e.target = .assessment) (type : t = d.kind.secondLevel) (unnamed : e.location.hasHazard = false)
      (first : d.FirstOf e.location x)

variable {d : Document} {l : Location} {t : EntityType} {x : Entity} {e : Edit}

theorem memberFound {group : List Entity} {index : Option Nat} :
    member? group index = some x ↔ ∃ i, index = some i ∧ group[i]? = some x :=
  Option.bind_eq_some_iff

theorem topOf (found : d.top l = .ok x) : d.TopOf l x := by
  unfold top at found
  dsimp only at found
  cases named : d.named? d.kind.topLevel l.stepId with
  | some y =>
    rw [named] at found
    cases found
    exact .named (namesFound named)
  | none =>
    rw [named] at found
    cases listed : member? (d.siblings d.kind.topLevel none) l.stepIndex with
    | none => simp [listed] at found
    | some y =>
      rw [listed] at found
      cases found
      obtain ⟨i, index, listed⟩ := memberFound.mp listed
      exact .placed (namedNone.mp named) index listed

theorem topReturns (designated : d.TopOf l x) : ∃ y, d.top l = .ok y ∧ y.id = x.id := by
  cases designated with
  | named named =>
    obtain ⟨y, found, same⟩ := namedLike named
    exact ⟨y, by simp [top, found], same⟩
  | placed unnamed index listed =>
    have found := memberFound.mpr ⟨_, index, listed⟩
    exact ⟨x, by simp [top, namedNone.mpr unnamed, found], rfl⟩

theorem stepGiven (designated : d.TopOf l x) : l.hasStep = true := by
  cases designated with
  | named named => simp [Location.hasStep, named.2]
  | placed _ index => simp [Location.hasStep, index]

theorem secondOf (found : d.second l = .ok x) : d.SecondOf l x := by
  unfold second at found
  dsimp only at found
  cases named : d.named? d.kind.secondLevel l.hazardId with
  | some y =>
    rw [named] at found
    cases found
    exact .named (namesFound named)
  | none =>
    rw [named] at found
    dsimp only at found
    repeat' split at found
    all_goals first | contradiction | cases found
    rename_i parent above _ listed
    obtain ⟨i, index, listed⟩ := memberFound.mp listed
    exact .placed (namedNone.mp named) (topOf above) index listed

theorem secondReturns (designated : d.SecondOf l x) : ∃ y, d.second l = .ok y ∧ y.id = x.id := by
  cases designated with
  | named named =>
    obtain ⟨y, found, same⟩ := namedLike named
    exact ⟨y, by simp [second, found], same⟩
  | placed unnamed under index listed =>
    obtain ⟨parent, above, same⟩ := topReturns under
    have found := memberFound.mpr ⟨_, index, same ▸ listed⟩
    have given : l.hazardIndex.isSome = true := by simp [index]
    exact ⟨x, by simp [second, namedNone.mpr unnamed, given, stepGiven under, above, found], rfl⟩

theorem hazardGiven (designated : d.SecondOf l x) : l.hasHazard = true := by
  cases designated with
  | named named => simp [Location.hasHazard, named.2]
  | placed _ _ index => simp [Location.hasHazard, index]

theorem firstFound {es : List Entity} : firstOf t es = .ok x ↔ es.head? = some x := by
  cases es <;> simp [firstOf]

theorem firstOfDefault (found : d.defaultSecond l = .ok x) : d.FirstOf l x := by
  unfold defaultSecond at found
  split at found
  · split at found
    · contradiction
    · rename_i parent above
      exact .ofStep (topOf above) (firstFound.mp found)
  · rename_i free
    exact .ofDocument (by simpa using free) (firstFound.mp found)

theorem defaultReturns (first : d.FirstOf l x) : d.defaultSecond l = .ok x := by
  cases first with
  | ofStep under first =>
    obtain ⟨parent, above, same⟩ := topReturns under
    simp [defaultSecond, stepGiven under, above, same, firstFound.mpr first]
  | ofDocument free first => simp [defaultSecond, free, firstFound.mpr first]

theorem existingDesignated {target : Target} (type : target.entityType? d.kind = some t)
    (found : d.existing t l = .ok x) : d.Designates l t x := by
  unfold existing at found
  split at found
  · rename_i top
    exact .top top (topOf found)
  · rename_i below
    split at found
    · rename_i second
      exact .second second (secondOf found)
    · rename_i deeper
      dsimp only at found
      split at found
      · rename_i y named
        cases found
        split at named
        · rename_i control
          exact .control control (namesFound named)
        · rename_i other
          -- what is neither of the levels nor a control is an action
          refine .action ?_ (namesFound named)
          cases target <;> simp_all [Target.entityType?]
      · contradiction

theorem existingReturns (designated : d.Designates l t x) : ∃ y, d.existing t l = .ok y ∧ y.id = x.id := by
  cases designated with
  | top type designated =>
    rw [existing, if_pos type]
    exact topReturns designated
  | second type designated =>
    rw [existing, if_neg (type ▸ d.kind.levelsApart), if_pos type]
    exact secondReturns designated
  | control type named =>
    obtain ⟨lower, deeper, _⟩ := Kind.controlApart type
    obtain ⟨y, found, same⟩ := namedLike named
    exact ⟨y, by simp [existing, lower, deeper, type, found], same⟩
  | action type named =>
    obtain ⟨lower, deeper⟩ := Kind.actionApart type
    have free : d.kind.control? ≠ some t := fun control => (Kind.controlApart control).2.2 type
    obtain ⟨y, found, same⟩ := namedLike named
    exact ⟨y, by simp [existing, lower, deeper, free, found], same⟩

theorem designatesSecond (designated : d.Designates l d.kind.secondLevel x) : d.SecondOf l x := by
  cases designated with
  | top type => exact absurd type d.kind.levelsApart
  | second _ designated => exact designated
  | control type => exact absurd rfl (Kind.controlApart type).2.1
  | action type => exact absurd rfl (Kind.actionApart type).2

theorem assessedType (rates : e.target = .assessment) (type : e.target.entityType? d.kind = some t) :
    t = d.kind.secondLevel := by
  rw [rates] at type
  exact (Option.some.inj type).symm

theorem addressed (changes : e.intent = .modify ∨ e.intent = .delete) {r : Resolution} (done : d.resolve e = .ok r) :
    ∃ t x, r = .entity t x ∧ d.Addresses e t x := by
  cases resolved done with
  | @assessed t x rates type found =>
    refine ⟨t, x, rfl, ?_⟩
    have level := assessedType rates type
    unfold secondOrDefault at found
    split at found
    · exact .designated type (.second level (secondOf found))
    · rename_i unnamed
      exact .first rates level (by simpa using unnamed) (firstOfDefault found)
  | @existing t x _ type _ found => exact ⟨t, x, rfl, .designated type (existingDesignated type found)⟩
  | placed _ _ intent => rcases changes with change | change <;> simp [change] at intent
  | ordered _ _ intent => rcases changes with change | change <;> simp [change] at intent

theorem addressReturns (changes : e.intent = .modify ∨ e.intent = .delete) (address : d.Addresses e t x) :
    ∃ y, d.resolve e = .ok (.entity t y) ∧ y.id = x.id := by
  cases address with
  | designated type designated =>
    by_cases rates : e.target = .assessment
    · obtain rfl := assessedType rates type
      obtain ⟨y, found, same⟩ := secondReturns (designatesSecond designated)
      have given := hazardGiven (designatesSecond designated)
      exact ⟨y, by simp [resolve, rates, Target.entityType?, secondOrDefault, given, found, Except.map], same⟩
    · obtain ⟨y, found, same⟩ := existingReturns designated
      refine ⟨y, ?_, same⟩
      rcases changes with change | change <;> simp [resolve, type, rates, change, found, Except.map]
  | first rates level unnamed first =>
    refine ⟨x, ?_, rfl⟩
    simp [resolve, rates, Target.entityType?, level, secondOrDefault, unnamed, defaultReturns first, Except.map]

end Document

namespace Store

theorem unresolvedLeaves {s : Store} {d : Document} {e : Edit} {fault : ReferenceFault} (lost : d.resolve e = .error fault) :
    (s.applyEdit d e).1 = .ok ⟨e, .error (.reference fault)⟩ ∧ (s.applyEdit d e).2.quiet = s.quiet := by
  rw [applyEdit, lost]
  exact ⟨rfl, rfl⟩

end Store

namespace Document

theorem referencesExplicit {d : Document} {e : Edit} (changes : e.intent = .modify ∨ e.intent = .delete) (s : Store) :
    (∀ r, d.resolve e = .ok r → ∃ t x, r = .entity t x ∧ d.Addresses e t x) ∧
    (∀ t x, d.Addresses e t x → ∃ y, d.resolve e = .ok (.entity t y) ∧ y.id = x.id) ∧
    ((∀ t x, ¬d.Addresses e t x) → ∃ fault, d.resolve e = .error fault ∧
      (EditFault.reference fault).code = "ReferenceNotFound" ∧
      (s.applyEdit d e).1 = .ok ⟨e, .error (.reference fault)⟩ ∧ (s.applyEdit d e).2.quiet = s.quiet) := by
  refine ⟨fun r done => addressed changes done, fun t x address => addressReturns changes address, fun nothing => ?_⟩
  cases done : d.resolve e with
  | ok r =>
    obtain ⟨t, x, _, address⟩ := addressed changes done
    exact absurd address (nothing t x)
  | error fault =>
    have ordered (intent : e.intent = .reorder) : ∃ refs, e.payload = some (.order refs) := by
      rcases changes with change | change <;> simp [change] at intent
    exact ⟨fault, rfl, resolveLost d e ordered fault done, Store.unresolvedLeaves done⟩

end Document

namespace Store

def rated : Store :=
  [.create (.numbered 1) .hazard (some (.numbered 2)) none [("label", .data (.text "Crushing"))],
    .update (.numbered 1) .hazard (.numbered 3) [("baseline", .rating ⟨some .A, some .certain, none⟩)]].foldl
    (fun s w => (s.write w).2) loading

theorem ratedHolds : ∃ d, rated.find? (.numbered 1) = some d ∧ d.kind = .riskAssessment ∧ d.actions = [] ∧
    d.hazards.map (·.id) = [.numbered 3] := by
  have holds : (rated.find? (.numbered 1)).map (fun d => (d.kind, d.actions, d.hazards.map (·.id))) =
      some (.riskAssessment, [], [.numbered 3]) := by cbv
  obtain ⟨d, found, same⟩ := Option.map_eq_some_iff.mp holds
  obtain ⟨kind, rest⟩ := Prod.mk.inj same
  exact ⟨d, found, kind, Prod.mk.inj rest⟩

def unrating (l : Location) : Edit := { intent := .delete, target := .assessment, location := l }

theorem referencesExplicitNamed : ∃ d x, rated.find? (.numbered 1) = some d ∧
    d.resolve (unrating { hazardId := (Identifier.numbered 3).text }) = .ok (.entity .hazard x) ∧ x.id = .numbered 3 := by
  obtain ⟨d, found, kind, -, hazards⟩ := ratedHolds
  obtain ⟨x, inside, id⟩ : ∃ x ∈ d.hazards, x.id = .numbered 3 :=
    List.mem_map.mp (hazards ▸ List.mem_singleton_self (Identifier.numbered 3))
  have level : d.kind.secondLevel = .hazard := by rw [kind]; rfl
  have names : d.Names d.kind.secondLevel (some (Identifier.numbered 3).text) x := by
    rw [level]
    exact ⟨inside, by rw [id]⟩
  obtain ⟨y, done, same⟩ :=
    (Document.referencesExplicit (d := d) (e := unrating { hazardId := (Identifier.numbered 3).text }) (.inr rfl) rated).2.1
      .hazard x (.designated (by rw [kind]; rfl) (.second level.symm (.named names)))
  exact ⟨d, y, found, done, same.trans id⟩

def unratingElsewhere : Command :=
  .single { unrating { actionId := "9" } with payload := some (.assessment {}) }

theorem referencesExplicitFallback : ∃ d, rated.find? (.numbered 1) = some d ∧
    validate d.kind (worded "DELETE" "ASSESSMENT" [("actionId", .text "9")] []) = .ok unratingElsewhere ∧
    (∀ t x, ¬d.Designates unratingElsewhere.location t x) ∧
    (∃ x, d.resolve unratingElsewhere.toEdit = .ok (.entity .hazard x) ∧ x.holds .baseline = true) ∧
    (rated.applyEdit d unratingElsewhere.toEdit).2.cases.map (fun d => d.hazards.map (·.holds .baseline)) = [[false]] := by
  obtain ⟨d, found, kind, actions, -⟩ := ratedHolds
  refine ⟨d, found, by rw [kind]; decide +kernel, fun t x designated => ?_, ?_, ?_⟩
  · cases designated with
    | top _ designated => cases designated <;> simp_all [unratingElsewhere, unrating, Command.single, Document.Names]
    | second _ designated => cases designated <;> simp_all [unratingElsewhere, unrating, Command.single, Document.Names]
    | control _ named => simp [unratingElsewhere, unrating, Command.single, Document.Names] at named
    | action type named =>
      rw [kind] at type
      cases type
      exact absurd named.1 (by simp [Document.collection, actions])
  · have first : (rated.find? (.numbered 1)).map (fun d =>
        ((d.resolve unratingElsewhere.toEdit).toOption.bind (·.entity? .hazard)).map (·.holds .baseline)) =
        some (some true) := by cbv
    rw [found, Option.map_some, Option.some.injEq] at first
    obtain ⟨x, addressed, held⟩ := Option.map_eq_some_iff.mp first
    exact ⟨x, resolvedEntity addressed, held⟩
  · have cleared : (rated.find? (.numbered 1)).map (fun d =>
        (rated.applyEdit d unratingElsewhere.toEdit).2.cases.map fun d => d.hazards.map (·.holds .baseline)) =
        some [[false]] := by cbv
    rw [found] at cleared
    exact Option.some.inj cleared

end Store
end SafetyCase
