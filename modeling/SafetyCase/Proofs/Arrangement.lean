import SafetyCase.Phase.Definition
import SafetyCase.Proofs.Removal
/-! Documents in order: identifiers that are distinct within each collection and were issued before, every
sibling group numbered without gaps, and a phase of the document's kind. Each change of a document's tree
keeps this, whatever its arguments; only a new entity must bring a fresh identifier. -/
namespace SafetyCase

theorem Entity.parentPatch (t : EntityType) (changes : List (String × Value)) (e : Entity) :
    (Entity.patch t changes e).1.parent = e.parent := by
  induction changes generalizing e with
  | nil => rfl
  | cons c rest ih =>
    simp only [Entity.patch]
    split
    · rfl
    · rw [ih, Entity.parentAssign]

theorem Entity.orderPatch (t : EntityType) (changes : List (String × Value)) (e : Entity) :
    (Entity.patch t changes e).1.order = e.order := by
  induction changes generalizing e with
  | nil => rfl
  | cons c rest ih =>
    simp only [Entity.patch]
    split
    · rfl
    · rw [ih, Entity.orderAssign]

namespace Document

structure Ordered (d : Document) : Prop where
  placed : ∀ t, Entity.Placed t (d.collection t)
  phase : d.phase ∈ d.kind.phaseNames

def IssuedBy (n : Nat) (d : Document) : Prop := ∀ t, ∀ id ∈ d.idsOf t, ∃ m, m ≤ n ∧ id = .numbered m

structure Regular (n : Nat) (d : Document) : Prop extends Ordered d where
  issued : d.IssuedBy n

variable {n : Nat} {d : Document} {t : EntityType}

theorem Ordered.distinct (ordered : d.Ordered) : d.Distinct := fun t => (ordered.placed t).distinct

theorem IssuedBy.mono {m : Nat} (issued : d.IssuedBy m) (le : m ≤ n) : d.IssuedBy n := by
  intro t id listed
  obtain ⟨i, bound, same⟩ := issued t id listed
  exact ⟨i, by omega, same⟩

theorem Regular.mono {m : Nat} (regular : d.Regular m) (le : m ≤ n) : d.Regular n :=
  ⟨regular.toOrdered, regular.issued.mono le⟩

theorem IssuedBy.fresh (issued : d.IssuedBy n) (t : EntityType) : Identifier.numbered (n + 1) ∉ d.idsOf t := by
  intro listed
  obtain ⟨m, bound, same⟩ := issued t _ listed
  have equal := Identifier.numberedInj.mp same
  omega

theorem Regular.set {es : List Entity} (regular : d.Regular n) (placed : Entity.Placed t es)
    (issued : ∀ id ∈ es.map (·.id), ∃ m, m ≤ n ∧ id = .numbered m) : (d.setCollection t es).Regular n := by
  refine ⟨⟨fun s => ?_, by simpa using regular.phase⟩, fun s => ?_⟩
  · rw [collectionSet]
    split
    · rename_i same
      exact same ▸ placed
    · exact regular.placed s
  · rw [idsOf, collectionSet]
    split
    · exact issued
    · exact regular.issued s

theorem Regular.reheaded {d' : Document} (regular : d.Regular n) (tree : ∀ t, d'.collection t = d.collection t)
    (phase : d'.phase ∈ d'.kind.phaseNames) : d'.Regular n := by
  refine ⟨⟨fun t => ?_, phase⟩, fun t => ?_⟩
  · rw [tree]
    exact regular.placed t
  · rw [idsOf, tree]
    exact regular.issued t

theorem insertAsInserted (d : Document) (t : EntityType) (e : Entity) (position : Option Int) :
    ∃ n, n ≤ (Entity.positions t e.parent (d.collection t)).length ∧
      d.insert t e position = d.setCollection t (Entity.inserted t e n (d.collection t)) :=
  ⟨insertionPoint position ((Entity.positions t e.parent (d.collection t)).map (·.2)).length, by
    simpa using insertionPointBound position (Entity.positions t e.parent (d.collection t)).length, rfl⟩

theorem siblingsInserted (d : Document) {e : Entity} {parent : Option Identifier}
    (group : Entity.SameGroup t parent e.parent) (position : Option Int) :
    (d.insert t e position).siblings t parent =
      Entity.numbered ((d.siblings t parent).insertIdx (insertionPoint position (d.siblings t parent).length) e) := by
  have same : d.siblings t parent = d.siblings t e.parent := Entity.groupOfSame group _
  have size : (Entity.positions t e.parent (d.collection t)).length = (d.siblings t e.parent).length := by
    rw [siblings, ← Entity.mapPositions, List.length_map]
  rw [same, ← size, siblings, Entity.groupOfSame group, insert, collectionSetOwn, List.length_map]
  exact Entity.groupInserted (insertionPointBound position _)

theorem regularInsert (regular : d.Regular n) {e : Entity} (fresh : e.id = .numbered (n + 1)) (position : Option Int) :
    (d.insert t e position).Regular (n + 1) := by
  obtain ⟨i, bound, same⟩ := insertAsInserted d t e position
  rw [same]
  have absent : e.id ∉ (d.collection t).map (·.id) := fresh ▸ regular.issued.fresh t
  refine (regular.mono (Nat.le_succ n)).set (Entity.placedInserted (regular.placed t) absent bound) ?_
  intro id listed
  rw [Entity.inserted, Entity.idsRenumber, List.map_append] at listed
  rcases List.mem_append.mp listed with old | new
  · exact (regular.mono (Nat.le_succ n)).issued t id old
  · exact ⟨n + 1, Nat.le_refl _, by simpa [fresh] using new⟩

theorem regularRemoveOne (regular : d.Regular n) {k : Kind} {e : Entity} (bare : d.Bare k t e) :
    (d.removeOne t e).Regular n := by
  refine regular.set (Entity.placedRemoved (regular.placed t) bare.known) fun id listed => ?_
  rw [Entity.renumberGroup, Entity.idsRenumber] at listed
  exact regular.issued t id ((List.eraseP_sublist.map _).subset listed)

theorem removeResult {k : Kind} {id : Identifier} {policy : DeletePolicy} {out : List Entity × Document}
    (done : d.remove k t id policy = .ok out) : out = removeTree k (k.height t) t d id := by
  unfold remove at done
  split at done
  · contradiction
  · split at done
    · contradiction
    · exact (Except.ok.inj done).symm

theorem removeHeader {k : Kind} {id : Identifier} {policy : DeletePolicy} {out : List Entity × Document}
    (done : d.remove k t id policy = .ok out) : out.2.header = d.header := by
  rw [removeResult done]
  exact (removeTreePruned k (k.height t) t d id).header

theorem regularRemove (regular : d.Regular n) {k : Kind} {id : Identifier} {policy : DeletePolicy}
    {out : List Entity × Document} (done : d.remove k t id policy = .ok out) : out.2.Regular n := by
  rw [removeResult done]
  exact removeTreeKeeps (fun _ r => r.toOrdered.distinct) (fun _ _ _ r bare => regularRemoveOne r bare)
    (Nat.le_refl _) regular

structure Reordering (d : Document) (t : EntityType) (parent : Option Identifier) (ids : List Identifier)
    (d' : Document) : Prop where
  once : ids.Nodup
  whole : ∀ id, id ∈ ids ↔ id ∈ (Entity.positions t parent (d.collection t)).map (·.1.id)
  result : d' = d.setCollection t
    (Entity.renumber ((Entity.reordered t parent ids (d.collection t)).map (·.2)) (d.collection t))

theorem reorderResult {parent : Option Identifier} {ids : List Identifier} {d' : Document}
    (done : d.reorder t parent ids = .ok d') : Reordering d t parent ids d' := by
  simp only [reorder] at done
  split at done
  · contradiction
  · rename_i once
    split at done
    · rename_i whole
      rw [Bool.and_eq_true, List.all_eq_true, List.all_eq_true] at whole
      refine ⟨not_not.mp once, fun id => ⟨fun h => ?_, fun h => ?_⟩, ?_⟩
      · exact List.contains_iff_mem.mp (whole.1 id h)
      · exact List.contains_iff_mem.mp (whole.2 id h)
      · rw [Entity.reordered, List.map_filterMap]
        exact (Except.ok.inj done).symm
    · contradiction

theorem reorderHeader {parent : Option Identifier} {ids : List Identifier} {d' : Document}
    (done : d.reorder t parent ids = .ok d') : d'.header = d.header := by
  rw [(reorderResult done).result]
  exact headerSet d t _

theorem regularReorder (regular : d.Regular n) {parent : Option Identifier} {ids : List Identifier} {d' : Document}
    (done : d.reorder t parent ids = .ok d') : d'.Regular n := by
  obtain ⟨once, whole, result⟩ := reorderResult done
  rw [result]
  refine regular.set (Entity.placedReordered (regular.placed t) once whole) fun id listed => ?_
  rw [Entity.idsRenumber] at listed
  exact regular.issued t id listed

theorem modifyFirstUnique {key : Identifier} {y : Entity} {es : List Entity} (distinct : (es.map (·.id)).Nodup) :
    modifyFirst (·.id = key) (fun _ => y) es = es.map fun e => if e.id = key then y else e := by
  induction es with
  | nil => rfl
  | cons e rest ih =>
    obtain ⟨absent, distinct⟩ := List.nodup_cons.mp distinct
    by_cases here : e.id = key
    · have others : rest.map (fun e => if e.id = key then y else e) = rest.map fun e => e :=
        List.map_congr_left fun x inside =>
          if_neg fun same => absent (List.mem_map.mpr ⟨x, inside, same.trans here.symm⟩)
      simp [modifyFirst, here, others]
    · simp [modifyFirst, here, ih distinct]

theorem regularModify (regular : d.Regular n) {x y : Entity} {key : Identifier} (found : d.find? t key = some x)
    (sameId : y.id = x.id) (sameParent : y.parent = x.parent) (sameOrder : y.order = x.order) :
    (d.modifyEntity t key fun _ => y).Regular n := by
  have distinct := regular.toOrdered.distinct t
  have kept : ∀ e ∈ d.collection t, (if e.id = key then y else e).id = e.id ∧
      (if e.id = key then y else e).parent = e.parent ∧ (if e.id = key then y else e).order = e.order := by
    intro e inside
    split
    · rename_i same
      have named : x.id = key := by simpa using List.find?_some found
      have equal : e = x := List.inj_on_of_nodup_map distinct inside (List.mem_of_find?_eq_some found)
        (same.trans named.symm)
      rw [equal]
      exact ⟨sameId, sameParent, sameOrder⟩
    · exact ⟨rfl, rfl, rfl⟩
  rw [modifyEntity, modifyFirstUnique distinct]
  refine regular.set (Entity.placedMapped (regular.placed t) kept) fun i listed => ?_
  obtain ⟨_, changed, same⟩ := List.mem_map.mp listed
  obtain ⟨e, inside, rfl⟩ := List.mem_map.mp changed
  rw [← same, (kept e inside).1]
  exact regular.issued t e.id (List.mem_map.mpr ⟨e, inside, rfl⟩)

end Document
end SafetyCase
