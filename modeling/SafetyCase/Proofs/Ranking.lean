import Mathlib
import SafetyCase.Proofs.Anchors
import SafetyCase.Proofs.Shifting
/-! The rank of an entity: how many of a collection stand before it in its group. Where the places within a group are
distinct, the rank is the position at which the group's row of identifiers has the entity, so a collection numbered by
rank depends on its entities and its rows alone; and one that is numbered without gaps is numbered by rank. -/
namespace SafetyCase.Entity

def rank (t : EntityType) (es : List Entity) (y : Entity) : Nat :=
  es.countP fun z => z.inGroup t y.parent && z.order < y.order

def ranked (t : EntityType) (es : List Entity) : List Entity := es.map fun y => y.withOrder (rank t es y)

def row (t : EntityType) (es : List Entity) (parent : Option Identifier) : List Identifier :=
  (group t parent es).map (·.id)

def Untied (t : EntityType) (es : List Entity) : Prop :=
  ∀ parent, (group t parent es).Pairwise fun a b => a.order < b.order

variable {t : EntityType} {es es' : List Entity} {y : Entity}

theorem countBelow {g : List Entity} (increasing : g.Pairwise fun a b => a.order < b.order)
    (distinct : (g.map (·.id)).Nodup) (inside : y ∈ g) :
    g.countP (fun z => z.order < y.order) = (g.map (·.id)).idxOf y.id := by
  induction g with
  | nil => contradiction
  | cons a rest ih =>
    obtain ⟨first, increasing⟩ := List.pairwise_cons.mp increasing
    obtain ⟨absent, distinct⟩ := List.nodup_cons.mp distinct
    rcases List.mem_cons.mp inside with rfl | later
    · have none : rest.countP (fun z => z.order < y.order) = 0 :=
        List.countP_eq_zero.mpr fun z listed => by simpa using Int.le_of_lt (first z listed)
      simp [none]
    · have other : a.id ≠ y.id := fun same => absent (List.mem_map.mpr ⟨y, later, same.symm⟩)
      rw [List.countP_cons_of_pos (by simpa using first y later), ih increasing distinct later, List.map_cons,
        List.idxOf_cons_ne _ other]

theorem rankInRow (untied : Untied t es) (distinct : (es.map (·.id)).Nodup) (inside : y ∈ es) :
    rank t es y = (row t es y.parent).idxOf y.id := by
  have perm := groupPerm t y.parent es
  have kept : ((group t y.parent es).map (·.id)).Nodup :=
    (perm.map _).nodup_iff.mpr (distinct.sublist (List.filter_sublist.map _))
  have member : y ∈ group t y.parent es := perm.mem_iff.mpr (List.mem_filter.mpr ⟨inside, inGroupOwn t y⟩)
  rw [row, ← countBelow (untied y.parent) kept member, perm.countP_eq, List.countP_filter]
  exact List.countP_congr fun z _ => by simp [and_comm]

theorem rankedByRows (untied : Untied t es) (distinct : (es.map (·.id)).Nodup) :
    ranked t es = (es.map unplaced).map fun u => u.withOrder ((row t es u.parent).idxOf u.id) := by
  rw [ranked, List.map_map]
  refine List.map_congr_left fun y inside => ?_
  rw [rankInRow untied distinct inside]
  rfl

theorem rankedAlike (untied : Untied t es) (untied' : Untied t es') (distinct : (es.map (·.id)).Nodup)
    (same : es'.map unplaced = es.map unplaced) (rows : ∀ parent, row t es' parent = row t es parent) :
    ranked t es' = ranked t es := by
  have ids : es'.map (·.id) = es.map (·.id) := by
    have mapped := congrArg (List.map Entity.id) same
    rwa [List.map_map, List.map_map] at mapped
  rw [rankedByRows untied distinct, rankedByRows untied' (ids ▸ distinct), same]
  exact List.map_congr_left fun u _ => by rw [rows]

theorem untiedPlaced (placed : Placed t es) : Untied t es := by
  intro parent
  have places := consecutiveDistinct (placed.gapless parent)
  have apart : (group t parent es).Pairwise fun a b => a.order ≠ b.order := List.pairwise_map.mp places
  exact ((groupSorted t parent es).and apart).imp fun both => lt_of_le_of_ne both.1 both.2

theorem untiedFiltered (placed : Placed t es) (keep : Entity → Bool) : Untied t (es.filter keep) := by
  intro parent
  rw [groupFiltered]
  exact (untiedPlaced placed parent).filter _

theorem rankedPlaced (placed : Placed t es) : ranked t es = es := by
  conv_rhs => rw [← List.map_id es]
  refine List.map_congr_left fun y inside => ?_
  have member : y ∈ group t y.parent es :=
    (groupPerm t y.parent es).mem_iff.mpr (List.mem_filter.mpr ⟨inside, inGroupOwn t y⟩)
  obtain ⟨n, here, place⟩ := placeOfMember (placed.gapless y.parent) member
  obtain ⟨bound, equal⟩ := List.getElem?_eq_some_iff.mp here
  have distinct : (row t es y.parent).Nodup :=
    ((groupPerm t y.parent es).map _).nodup_iff.mpr (placed.distinct.sublist (List.filter_sublist.map _))
  have listed : n < (row t es y.parent).length := by simpa [row] using bound
  have index : (row t es y.parent).idxOf y.id = n := by
    have found := distinct.idxOf_getElem n listed
    rwa [show (row t es y.parent)[n] = y.id by simp [row, equal]] at found
  rw [rankInRow (untiedPlaced placed) placed.distinct inside, index, ← place]
  rfl

theorem rowFiltered (keep : Identifier → Bool) (es : List Entity) (parent : Option Identifier) :
    row t (es.filter fun y => keep y.id) parent = (row t es parent).filter keep := by
  rw [row, row, groupFiltered, List.filter_map]
  rfl

theorem unplacedRemoved (distinct : (es.map (·.id)).Nodup) (e : Entity) :
    (removed t e es).map unplaced = (es.filter fun y => y.id ≠ e.id).map unplaced := by
  rw [removed, renumberGroup, unplacedRenumber, eraseFiltered distinct]

theorem rowRemoved (placed : Placed t es) {e : Entity} (inside : e ∈ es) (parent : Option Identifier) :
    row t (removed t e es) parent = (row t es parent).filter fun i => i ≠ e.id := by
  have only {x : Entity} (listed : x ∈ es) (named : x.id = e.id) : x = e :=
    List.inj_on_of_nodup_map placed.distinct listed inside named
  simp only [row]
  rcases sameOrApart t parent e.parent with same | apart
  · rw [groupOfSame same, groupOfSame same, idsRemoved placed.distinct e]
  · rw [groupRemovedOther (fun x listed named => congrArg (·.parent) (only listed named)) apart]
    refine (List.filter_eq_self.mpr fun i listed => ?_).symm
    obtain ⟨x, member, rfl⟩ := List.mem_map.mp listed
    obtain ⟨here, within⟩ := List.mem_filter.mp ((groupPerm t parent es).mem_iff.mp member)
    have other : x.id ≠ e.id := fun named => by
      rw [only here named, outsideApart apart] at within
      contradiction
    simpa using other

end SafetyCase.Entity
