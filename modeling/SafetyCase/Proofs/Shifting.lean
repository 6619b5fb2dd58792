import Mathlib
import SafetyCase.Proofs.Descent
/-! How far the renumbering of one group reaches into a flat collection: every entity stays where it is in the list, the
members of the group may get other places, and nothing else about them or about anybody else is different. How the
group itself then reads is said by its identifiers: without the one removed, or in the order that was asked for. Sorting
by place is stable, so what is left out of a collection is left out of its groups, with ties and gaps as they are. -/
namespace SafetyCase.Entity

def Shifts (t : EntityType) (parent : Option Identifier) (es es' : List Entity) : Prop :=
  List.Forall₂ (fun x y => y = x.withOrder y.order ∧ (x.inGroup t parent = false → y = x)) es es'

variable {t : EntityType} {parent : Option Identifier} {es : List Entity} {e : Entity}

theorem shiftsRenumber {order : List Nat} (inside : ∀ n ∈ order, ∃ x, es[n]? = some x ∧ x.inGroup t parent = true) :
    Shifts t parent es (renumber order es) := by
  rw [Shifts, List.forall₂_iff_get]
  refine ⟨(lengthRenumber order es).symm, fun n bound _ => ?_⟩
  simp only [renumber, List.get_eq_getElem, List.getElem_mapIdx]
  split
  · rename_i i placed
    refine ⟨rfl, fun outside => ?_⟩
    have listed : n ∈ order := by
      by_contra absent
      rw [List.idxOf?_eq_none_iff.mpr absent] at placed
      contradiction
    obtain ⟨x, here, member⟩ := inside n listed
    obtain ⟨_, rfl⟩ := List.getElem?_eq_some_iff.mp here
    rw [outside] at member
    contradiction
  · exact ⟨rfl, fun _ => rfl⟩

theorem positionsInside : ∀ n ∈ (positions t parent es).map (·.2), ∃ x, es[n]? = some x ∧ x.inGroup t parent = true := by
  intro n listed
  obtain ⟨m, positioned, rfl⟩ := List.mem_map.mp listed
  have member := (positionsPerm t parent es).mem_iff.mp positioned
  exact ⟨m.1, positionInside member, (List.mem_filter.mp member).2⟩

theorem shiftsRemoved (t : EntityType) (e : Entity) (es : List Entity) :
    Shifts t e.parent (es.eraseP (·.id = e.id)) (removed t e es) := shiftsRenumber positionsInside

theorem shiftsReordered (t : EntityType) (parent : Option Identifier) (ids : List Identifier) (es : List Entity) :
    Shifts t parent es (renumber ((reordered t parent ids es).map (·.2)) es) := by
  refine shiftsRenumber fun n listed => ?_
  obtain ⟨m, named, rfl⟩ := List.mem_map.mp listed
  exact positionsInside m.2 (List.mem_map.mpr ⟨m, reorderedFrom named, rfl⟩)

theorem shiftsInserted (t : EntityType) (e : Entity) (n : Nat) (es : List Entity) :
    Shifts t e.parent (es ++ [e]) (inserted t e n es) := by
  refine shiftsRenumber fun i listed => ?_
  rcases List.eq_or_mem_of_mem_insertIdx listed with rfl | before
  · exact ⟨e, by simp, inGroupOwn t e⟩
  · obtain ⟨x, here, member⟩ := positionsInside i before
    exact ⟨x, by rw [List.getElem?_append_left (List.getElem?_eq_some_iff.mp here).1, here], member⟩

theorem Shifts.ofSame {p q : Option Identifier} {es' : List Entity} (same : SameGroup t p q)
    (shifts : Shifts t p es es') : Shifts t q es es' :=
  shifts.imp fun x _ ⟨moved, outside⟩ => ⟨moved, fun out => outside ((same x).trans out)⟩

theorem eraseFiltered {id : Identifier} (distinct : (es.map (·.id)).Nodup) :
    es.eraseP (·.id = id) = es.filter (·.id ≠ id) := by
  induction es with
  | nil => rfl
  | cons x rest ih =>
    obtain ⟨absent, distinct⟩ := List.nodup_cons.mp distinct
    by_cases hit : x.id = id
    · have others : rest.filter (·.id ≠ id) = rest :=
        List.filter_eq_self.mpr fun y inside => by
          simpa using fun same => absent (List.mem_map.mpr ⟨y, inside, same.trans hit.symm⟩)
      rw [List.eraseP_cons_of_pos (by simpa using hit), List.filter_cons_of_neg (by simpa using hit), others]
    · rw [List.eraseP_cons_of_neg (by simpa using hit), List.filter_cons_of_pos (by simpa using hit), ih distinct]

def byPlace (es : List Entity) : List Entity := es.mergeSort fun a b => a.order ≤ b.order

theorem byPlaceCons (e : Entity) (es : List Entity) :
    byPlace (e :: es) = (byPlace es).filter (fun b => b.order < e.order) ++
      e :: (byPlace es).filter (fun b => e.order ≤ b.order) ∧
    byPlace es = (byPlace es).filter (fun b => b.order < e.order) ++ (byPlace es).filter fun b => e.order ≤ b.order := by
  have trans (a b c : Entity) : decide (a.order ≤ b.order) = true → decide (b.order ≤ c.order) = true →
      decide (a.order ≤ c.order) = true := by simpa using Int.le_trans
  have total (a b : Entity) : (decide (a.order ≤ b.order) || decide (b.order ≤ a.order)) = true := by
    simpa using Int.le_total a.order b.order
  obtain ⟨before, after, whole, rest, lower⟩ := List.mergeSort_cons trans total e es
  have increasing := List.pairwise_mergeSort trans total (e :: es)
  rw [whole] at increasing
  have early : ∀ b ∈ before, b.order < e.order := fun b listed => by simpa using lower b listed
  have late : ∀ b ∈ after, e.order ≤ b.order := fun b listed =>
    decide_eq_true_iff.mp ((List.pairwise_cons.mp (List.pairwise_append.mp increasing).2.1).1 b listed)
  have first : (byPlace es).filter (fun b => b.order < e.order) = before := by
    rw [byPlace, rest, List.filter_append, List.filter_eq_self.mpr (by simpa using early),
      List.filter_eq_nil_iff.mpr (by simpa using late), List.append_nil]
  have last : (byPlace es).filter (fun b => e.order ≤ b.order) = after := by
    rw [byPlace, rest, List.filter_append, List.filter_eq_nil_iff.mpr (by simpa using early),
      List.filter_eq_self.mpr (by simpa using late), List.nil_append]
  rw [first, last]
  exact ⟨whole, rest⟩

theorem byPlaceFiltered (keep : Entity → Bool) (es : List Entity) : byPlace (es.filter keep) = (byPlace es).filter keep := by
  induction es with
  | nil => simp [byPlace]
  | cons e rest ih =>
    by_cases kept : keep e
    · rw [List.filter_cons_of_pos kept, (byPlaceCons e _).1, (byPlaceCons e rest).1, ih, List.filter_append,
        List.filter_cons_of_pos kept, List.filter_comm keep, List.filter_comm keep]
    · rw [List.filter_cons_of_neg kept, ih, (byPlaceCons e rest).1, List.filter_append, List.filter_cons_of_neg kept,
        ← List.filter_append, ← (byPlaceCons e rest).2]

theorem groupFiltered (keep : Entity → Bool) (es : List Entity) :
    group t parent (es.filter keep) = (group t parent es).filter keep := by
  have same := byPlaceFiltered keep (es.filter (·.inGroup t parent))
  rw [List.filter_comm] at same
  exact same

theorem idsRemoved (distinct : (es.map (·.id)).Nodup) (e : Entity) : (group t e.parent (removed t e es)).map (·.id) =
    ((group t e.parent es).map (·.id)).filter (· ≠ e.id) := by
  rw [groupRemoved, idsNumbered, eraseFiltered distinct, groupFiltered,
    List.filter_map]
  rfl

theorem idsReordered {ids : List Identifier} (known : ∀ id ∈ ids, id ∈ (positions t parent es).map (·.1.id)) :
    (reordered t parent ids es).map (·.1.id) = ids := by
  rw [reordered, List.map_filterMap]
  conv_rhs => rw [← List.filterMap_some (l := ids)]
  refine List.filterMap_congr fun id listed => ?_
  obtain ⟨m, inside, same⟩ := List.mem_map.mp (known id listed)
  cases found : (positions t parent es).reverse.find? (·.1.id = id) with
  | none => exact absurd (List.find?_eq_none.mp found m (List.mem_reverse.mpr inside)) (by simpa using same)
  | some x => simpa using List.find?_some found

end SafetyCase.Entity
