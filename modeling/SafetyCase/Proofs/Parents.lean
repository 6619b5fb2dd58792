import Mathlib
import SafetyCase.Proofs.Landing
import SafetyCase.Proofs.Rooting
import SafetyCase.Proofs.Storable
/-! Where the parent of an entity can be relied on. The store looks for a parent only where the kind of the document has
a place for the type, and there no run leaves an entity without one. For the other types below the top, any parent is
taken as it is given, whether there is such an entity or not. -/
namespace SafetyCase

def Document.Adrift (d : Document) (e : Entity) : Prop := ∀ p, ∀ q ∈ d.collection p, e.parent ≠ some q.id

namespace Store

variable {s : Store} {id : Identifier} {d : Document} {t p : EntityType} {parent : Option Identifier}

theorem lacksParent (child : t ∈ d.kind.children p) :
    lacksParent? d t parent = some p ↔ ∀ q ∈ d.collection p, parent ≠ some q.id := by
  constructor
  · intro lacks q inside named
    have there : (d.find? p q.id).isSome = true := List.find?_isSome.mpr ⟨q, inside, by simp⟩
    simp [lacksParent?, Kind.parentTypeIff.mpr child, named, there] at lacks
  · intro none
    cases lacks : lacksParent? d t parent with
    | none =>
      obtain ⟨q, inside, named⟩ := Document.parentPresent lacks child
      exact absurd named (none q inside)
    | some p' =>
      unfold lacksParent? at lacks
      rw [Kind.parentTypeIff.mpr child] at lacks
      dsimp only at lacks
      split at lacks
      · contradiction
      · exact lacks.symm

theorem createRefused (found : s.find? id = some d) (child : t ∈ d.kind.children p) (position : Option Int)
    (data : List (String × Value)) :
    (s.write (.create id t parent position data)).1 = .error (.write (.missingParent p parent)) ↔
      ∀ q ∈ d.collection p, parent ≠ some q.id := by
  rw [← lacksParent child, write, unanswered, createEntity, onCaseFound found]
  cases lacks : lacksParent? d t parent with
  | none =>
    dsimp only
    split <;> simp [Except.map]
  | some p' => simp [Except.map]

theorem memInsert (d : Document) (t : EntityType) (e : Entity) (position : Option Int) :
    ∃ x ∈ (d.insert t e position).collection t, x.unplaced = e.unplaced := by
  obtain ⟨n, _, same⟩ := Document.insertAsInserted d t e position
  rw [same, Document.collectionSetOwn, Entity.inserted, ← List.mem_map, Entity.unplacedRenumber]
  exact List.mem_map_of_mem (List.mem_append_right _ (List.mem_singleton_self e))

theorem createUnchecked (found : s.find? id = some d) (below : t.isTop = false) (unplaced : ∀ p, t ∉ d.kind.children p)
    {data : List (String × Value)} (settable : ∀ c ∈ data, t.Settable c.1) (i : Identifier) (position : Option Int) :
    (s.write (.create id t (some i) position data)).1 = .ok () ∧
      ∃ d', (s.write (.create id t (some i) position data)).2.find? id = some d' ∧
        ∃ e ∈ d'.collection t, e.id = s.freshId ∧ e.parent = some i := by
  have untyped : d.kind.parentType? t = none :=
    Option.eq_none_iff_forall_not_mem.mpr fun p typed => unplaced p (Kind.parentTypeIff.mp typed)
  obtain ⟨x, built⟩ := Entity.buildReturns settable (.inr (show (some i).isSome = true from rfl)) s.freshId
  have goes : (s.write (.create id t (some i) position data)).1 = .ok () :=
    (createGoes found position data).mpr ⟨by simp [lacksParent?, untyped], x, built⟩
  obtain ⟨y, same, lands⟩ := createLands found goes
  cases built.symm.trans same
  have parent : x.parent = some i := by simp [(Entity.builtForm built).1, below]
  obtain ⟨e, inside, like⟩ := memInsert d t x position
  obtain ⟨ids, parents, _⟩ := Entity.unplacedFields like
  refine ⟨goes, _, lands, e, ?_, ids.trans (Entity.idBuild built), parents.trans parent⟩
  revert inside
  cases t <;> exact fun inside => inside

end Store

namespace Office

theorem parentsByPlace {seen : List Document} {o : Office} (attained : Attained seen o) {d : Document} {t : EntityType} :
    (∀ p, t ∈ d.kind.children p →
      (d ∈ o.store.cases → ∀ e ∈ d.collection t, ∃ q ∈ d.collection p, e.parent = some q.id) ∧
      ∀ id, o.store.find? id = some d → ∀ parent position data,
        (o.store.write (.create id t parent position data)).1 = .error (.write (.missingParent p parent)) ↔
          ∀ q ∈ d.collection p, parent ≠ some q.id) ∧
    (t.isTop = false → (∀ p, t ∉ d.kind.children p) → ∀ id, o.store.find? id = some d →
      ∀ data, (∀ c ∈ data, t.Settable c.1) → ∀ i position,
        (o.store.write (.create id t (some i) position data)).1 = .ok () ∧
          ∃ d', (o.store.write (.create id t (some i) position data)).2.find? id = some d' ∧
            ∃ e ∈ d'.collection t, e.id = o.store.freshId ∧ e.parent = some i) := by
  refine ⟨fun p child => ⟨fun stored => ?_, fun id found parent position data => ?_⟩, fun below unplaced id found => ?_⟩
  · exact ((attainedKeeps Store.rootedKeeps attained).stored d stored).linked p t child
  · exact Store.createRefused found child position data
  · exact fun data settable => Store.createUnchecked found below unplaced settable

theorem attainedWrites {seen : List Document} {o : Office} (attained : Attained seen o) {writes : List Write}
    (parts : ∀ w ∈ writes, ∀ d, w ≠ .replace d) :
    Attained seen { o with store := writes.foldl (fun s w => (s.write w).2) o.store } := by
  induction writes generalizing o with
  | nil => exact attained
  | cons w rest ih =>
    obtain ⟨first, later⟩ := List.forall_mem_cons.mp parts
    exact ih (attained.write w fun d whole => absurd whole (first d)) later

def started (k : Kind) : Office := (fresh ⟨0⟩ fun _ => none).step (.createCase k "Demo")

theorem attainedStarted (k : Kind) : Attained [] (started k) := .step (.fresh ⟨0⟩ fun _ => none) _

def nesting : List Write :=
  [.create (.numbered 1) .step none none [], .create (.numbered 1) .hazard (some (.numbered 2)) none [],
    .create (.numbered 1) .control (some (.numbered 3)) none [], .create (.numbered 1) .step none none [],
    .create (.numbered 1) .hazard (some (.numbered 5)) none [], .delete (.numbered 1) .step (.numbered 2) .cascade]

def nested (k : Kind) : Store := nesting.foldl (fun s w => (s.write w).2) (started k).store

theorem parentsByPlaceNested : ∃ d, (nested .riskAssessment).find? (.numbered 1) = some d ∧
    d.controls = [] ∧ d.hazards.map (fun e => (e.id, e.parent)) = [(.numbered 6, some (.numbered 5))] ∧
    (∀ e ∈ d.collection .hazard, ∃ q ∈ d.collection .step, e.parent = some q.id) ∧
    ((nested .riskAssessment).write (.create (.numbered 1) .control (some (.numbered 3)) none [])).1 =
      .error (.write (.missingParent .hazard (some (.numbered 3)))) := by
  have attained : Attained [] { started .riskAssessment with store := nested .riskAssessment } :=
    attainedWrites (attainedStarted .riskAssessment) (by simp [nesting])
  have left : ((nested .riskAssessment).find? (.numbered 1)).map (fun d =>
      (d.kind, d.controls, d.hazards.map fun e => (e.id, e.parent))) =
      some (.riskAssessment, [], [(.numbered 6, some (.numbered 5))]) := by cbv
  obtain ⟨d, found, same⟩ := Option.map_eq_some_iff.mp left
  obtain ⟨kind, rest⟩ := Prod.mk.inj same
  obtain ⟨controls, hazards⟩ := Prod.mk.inj rest
  refine ⟨d, found, controls, hazards, ?_, ?_⟩
  · exact ((parentsByPlace attained (t := .hazard)).1 .step (by rw [kind]; decide)).1 (Store.foundStored found).1
  · refine (((parentsByPlace attained (t := .control)).1 .hazard (by rw [kind]; decide)).2 _ found _ _ _).mpr ?_
    intro q inside named
    have listed : (q.id, q.parent) ∈ d.hazards.map fun e => (e.id, e.parent) := List.mem_map.mpr ⟨q, inside, rfl⟩
    rw [hazards, ← Option.some.inj named] at listed
    simp [Identifier.numberedInj] at listed

theorem parentsByPlaceAdrift : (started .incident).store.cases.map (·.kind) = [.incident] ∧
    ((started .incident).store.write (.create (.numbered 1) .hazard (some (.numbered 99)) none [])).1 = .ok () ∧
    ∃ d ∈ ((started .incident).store.write (.create (.numbered 1) .hazard (some (.numbered 99)) none [])).2.cases,
      ∃ e ∈ d.hazards, d.Adrift e := by
  have lost : ((started .incident).store.write
      (.create (.numbered 1) .hazard (some (.numbered 99)) none [])).2.cases.any (fun d => d.hazards.any fun e =>
        EntityType.all.all fun p => (d.collection p).all fun q => decide (e.parent ≠ some q.id)) = true := by cbv
  simp only [List.any_eq_true, List.all_eq_true, decide_eq_true_eq] at lost
  obtain ⟨d, stored, e, inside, apart⟩ := lost
  exact ⟨rfl, rfl, d, stored, e, inside, fun p => apart p (EntityType.memAll p)⟩

end Office
end SafetyCase
