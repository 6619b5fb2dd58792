import SafetyCase.Proofs.Numbering
import SafetyCase.Tree.Patch
import SafetyCase.Tree.Remove
/-! The order of siblings under each change of a collection: insertion, removal, reordering and a change of
values. Each is stated by what the affected group reads as; every other group is as before. -/
namespace SafetyCase.Entity

variable {t : EntityType} {parent : Option Identifier} {es : List Entity} {e : Entity}

def inserted (t : EntityType) (e : Entity) (n : Nat) (es : List Entity) : List Entity :=
  renumber (((positions t e.parent es).map (·.2)).insertIdx n es.length) (es ++ [e])

def removed (t : EntityType) (e : Entity) (es : List Entity) : List Entity :=
  renumberGroup t e.parent (es.eraseP (·.id = e.id))

theorem membersAppend (t : EntityType) (parent : Option Identifier) (es : List Entity) (e : Entity) :
    members t parent (es ++ [e]) = members t parent es ++ if e.inGroup t parent then [(e, es.length)] else [] := by
  simp [members, List.zipIdx_append, List.filter_cons]

theorem groupInserted {n : Nat} (bound : n ≤ (positions t e.parent es).length) :
    group t e.parent (inserted t e n es) = numbered ((group t e.parent es).insertIdx n e) := by
  have all : ((positions t e.parent es).insertIdx n (e, es.length)).Perm (members t e.parent (es ++ [e])) := by
    rw [membersAppend, if_pos (inGroupOwn t e)]
    exact (List.perm_insertIdx _ _ bound).trans
      (((positionsPerm _ _ _).cons _).trans (List.perm_append_singleton _ _).symm)
  have along := groupRenumber all
  rwa [List.map_insertIdx, List.map_insertIdx, mapPositions] at along

theorem distinctInserted {n : Nat} (distinct : (es.map (·.id)).Nodup) (fresh : e.id ∉ es.map (·.id)) :
    ((inserted t e n es).map (·.id)).Nodup := by
  rw [inserted, idsRenumber, List.map_append]
  exact List.nodup_append'.mpr ⟨distinct, List.nodup_singleton _, by simpa using fresh⟩

theorem groupInsertedOther {n : Nat} (apart : Apart t parent e.parent) :
    group t parent (inserted t e n es) = group t parent es := by
  have outside := outsideApart apart
  have appended : group t parent (es ++ [e]) = group t parent es := by
    simp [group, List.filter_append, outside]
  rw [← appended]
  refine groupUntouched fun m inside listed => ?_
  rw [membersAppend, outside] at inside
  have here : m ∈ members t parent es := by simpa using inside
  rcases List.eq_or_mem_of_mem_insertIdx listed with last | before
  · obtain ⟨bound, _⟩ := List.getElem?_eq_some_iff.mp (positionInside here)
    omega
  · exact positionsApart apart m here before

theorem filterErased {p q : Entity → Bool} (apart : ∀ x ∈ es, p x → q x = false) :
    (es.eraseP p).filter q = es.filter q := by
  induction es with
  | nil => rfl
  | cons x rest ih =>
    by_cases hit : p x
    · rw [List.eraseP_cons_of_pos hit, List.filter_cons, apart x List.mem_cons_self hit]
      rfl
    · rw [List.eraseP_cons_of_neg hit, List.filter_cons, List.filter_cons,
        ih fun y inside => apart y (List.mem_cons_of_mem x inside)]

theorem groupRemoved : group t e.parent (removed t e es) = numbered (group t e.parent (es.eraseP (·.id = e.id))) := by
  have along := groupRenumber (positionsPerm t e.parent (es.eraseP (·.id = e.id)))
  rwa [mapPositions] at along

theorem groupRemovedOther (known : ∀ x ∈ es, x.id = e.id → x.parent = e.parent) (apart : Apart t parent e.parent) :
    group t parent (removed t e es) = group t parent es := by
  -- what is erased bears the identifier, and may differ from the entity given in all but the parent
  have erased : group t parent (es.eraseP (·.id = e.id)) = group t parent es := by
    unfold group
    rw [filterErased]
    intro x inside same
    have parents := known x inside (by simpa using same)
    rw [← parents] at apart
    exact outsideApart apart
  rw [← erased]
  exact groupUntouched (positionsApart apart)

def reordered (t : EntityType) (parent : Option Identifier) (ids : List Identifier) (es : List Entity) :
    List (Entity × Nat) :=
  ids.filterMap fun id => (positions t parent es).reverse.find? (·.1.id = id)

theorem distinctMembers (distinct : (es.map (·.id)).Nodup) : ((positions t parent es).map (·.1.id)).Nodup := by
  have kept : ((es.filter (·.inGroup t parent)).map (·.id)).Nodup := distinct.sublist (List.filter_sublist.map _)
  rw [filterByMembers, List.map_map] at kept
  exact ((positionsPerm t parent es).map _).nodup_iff.mpr kept

theorem reorderedFrom {ids : List Identifier} {m : Entity × Nat} (listed : m ∈ reordered t parent ids es) :
    m ∈ positions t parent es := by
  obtain ⟨_, _, found⟩ := List.mem_filterMap.mp listed
  exact List.mem_reverse.mp (List.mem_of_find?_eq_some found)

theorem memReordered {ids : List Identifier} (distinct : (es.map (·.id)).Nodup)
    (same : ∀ id, id ∈ ids ↔ id ∈ (positions t parent es).map (·.1.id)) (m : Entity × Nat) :
    m ∈ reordered t parent ids es ↔ m ∈ positions t parent es := by
  refine ⟨reorderedFrom, fun inside => ?_⟩
  have named : m.1.id ∈ ids := (same _).mpr (List.mem_map.mpr ⟨m, inside, rfl⟩)
  refine List.mem_filterMap.mpr ⟨m.1.id, named, ?_⟩
  cases found : (positions t parent es).reverse.find? (·.1.id = m.1.id) with
  | none => exact absurd (List.find?_eq_none.mp found m (List.mem_reverse.mpr inside)) (by simp)
  | some x =>
    have inside' : x ∈ positions t parent es := List.mem_reverse.mp (List.mem_of_find?_eq_some found)
    have equal : x.1.id = m.1.id := by simpa using List.find?_some found
    rw [List.inj_on_of_nodup_map (distinctMembers distinct) inside' inside equal]

theorem reorderedPerm {ids : List Identifier} (distinct : (es.map (·.id)).Nodup) (once : ids.Nodup)
    (same : ∀ id, id ∈ ids ↔ id ∈ (positions t parent es).map (·.1.id)) :
    (reordered t parent ids es).Perm (members t parent es) := by
  refine List.Perm.trans ?_ (positionsPerm t parent es)
  refine (List.perm_ext_iff_of_nodup ?_ ?_).mpr (memReordered distinct same)
  · refine once.filterMap fun a b m found also => ?_
    have first : m.1.id = a := by simpa using List.find?_some found
    have second : m.1.id = b := by simpa using List.find?_some also
    exact first.symm.trans second
  · exact (distinctMembers distinct).of_map _

theorem groupReordered {ids : List Identifier} (distinct : (es.map (·.id)).Nodup) (once : ids.Nodup)
    (same : ∀ id, id ∈ ids ↔ id ∈ (positions t parent es).map (·.1.id)) :
    group t parent (renumber ((reordered t parent ids es).map (·.2)) es) =
      numbered ((reordered t parent ids es).map (·.1)) :=
  groupRenumber (reorderedPerm distinct once same)

theorem groupReorderedOther {ids : List Identifier} {p : Option Identifier} (apart : Apart t p parent) :
    group t p (renumber ((reordered t parent ids es).map (·.2)) es) = group t p es := by
  refine groupUntouched fun m inside listed => ?_
  obtain ⟨x, listed, same⟩ := List.mem_map.mp listed
  exact positionsApart apart m inside (List.mem_map.mpr ⟨x, reorderedFrom listed, same⟩)

theorem groupMapped {f : Entity → Entity} (kept : ∀ x ∈ es, (f x).parent = x.parent ∧ (f x).order = x.order) :
    group t parent (es.map f) = (group t parent es).map f := by
  have sorted := List.map_mergeSort (f := f) (r := fun a b : Entity => decide (a.order ≤ b.order))
    (s := fun a b : Entity => decide (a.order ≤ b.order)) (l := es.filter (·.inGroup t parent)) fun a ha b hb => by
      rw [(kept a (List.mem_filter.mp ha).1).2, (kept b (List.mem_filter.mp hb).1).2]
  have filtered : (es.map f).filter (·.inGroup t parent) = (es.filter (·.inGroup t parent)).map f := by
    rw [List.filter_map]
    congr 1
    exact List.filter_congr fun x inside => by simp [inGroup, (kept x inside).1]
  unfold group
  rw [filtered, sorted]

structure Placed (t : EntityType) (es : List Entity) : Prop where
  distinct : (es.map (·.id)).Nodup
  gapless : ∀ parent, Consecutive (group t parent es)

theorem placedEmpty (t : EntityType) : Placed t [] := ⟨.nil, fun _ => by simp [group, Consecutive]⟩

theorem placedInserted {n : Nat} (placed : Placed t es) (fresh : e.id ∉ es.map (·.id))
    (bound : n ≤ (positions t e.parent es).length) : Placed t (inserted t e n es) := by
  refine ⟨distinctInserted placed.distinct fresh, fun parent => ?_⟩
  rcases sameOrApart t parent e.parent with same | apart
  · rw [groupOfSame same, groupInserted bound]
    exact consecutiveNumbered _
  · rw [groupInsertedOther apart]
    exact placed.gapless parent

theorem placedRemoved (placed : Placed t es) (known : ∀ x ∈ es, x.id = e.id → x.parent = e.parent) :
    Placed t (removed t e es) := by
  refine ⟨?_, fun parent => ?_⟩
  · rw [removed, renumberGroup, idsRenumber]
    exact placed.distinct.sublist (List.eraseP_sublist.map _)
  · rcases sameOrApart t parent e.parent with same | apart
    · rw [groupOfSame same, groupRemoved]
      exact consecutiveNumbered _
    · rw [groupRemovedOther known apart]
      exact placed.gapless parent

theorem placedReordered {ids : List Identifier} (placed : Placed t es) (once : ids.Nodup)
    (same : ∀ id, id ∈ ids ↔ id ∈ (positions t parent es).map (·.1.id)) :
    Placed t (renumber ((reordered t parent ids es).map (·.2)) es) := by
  refine ⟨?_, fun p => ?_⟩
  · rw [idsRenumber]
    exact placed.distinct
  · rcases sameOrApart t p parent with equal | apart
    · rw [groupOfSame equal, groupReordered placed.distinct once same]
      exact consecutiveNumbered _
    · rw [groupReorderedOther apart]
      exact placed.gapless p

theorem placedMapped {f : Entity → Entity} (placed : Placed t es)
    (kept : ∀ x ∈ es, (f x).id = x.id ∧ (f x).parent = x.parent ∧ (f x).order = x.order) : Placed t (es.map f) := by
  refine ⟨?_, fun parent => ?_⟩
  · have ids : (es.map f).map (·.id) = es.map (·.id) := by
      rw [List.map_map]
      exact List.map_congr_left fun x inside => (kept x inside).1
    rw [ids]
    exact placed.distinct
  · have gapless := placed.gapless parent
    rw [groupMapped fun x inside => (kept x inside).2]
    unfold Consecutive at *
    rw [List.length_map, ← gapless, List.map_map]
    exact List.map_congr_left fun x inside => (kept x (List.mem_filter.mp (groupPerm _ _ _ |>.mem_iff.mp inside)).1).2.2

end SafetyCase.Entity
