import Mathlib.Data.List.InsertIdx
import Mathlib.Data.List.Nodup
import SafetyCase.Tree.Insert
import SafetyCase.Tree.Reorder
/-! Numbering of sibling groups inside a flat collection. A collection is renumbered along a list of
positions; what counts is how each group reads afterwards. Ties and gaps may stand in the collection
before, and nothing is assumed of its other groups. -/
namespace SafetyCase.Entity

def members (t : EntityType) (parent : Option Identifier) (es : List Entity) : List (Entity × Nat) :=
  es.zipIdx.filter (·.1.inGroup t parent)

def placedBy (order : List Nat) (m : Entity × Nat) : Entity :=
  match order.idxOf? m.2 with
  | some n => m.1.withOrder n
  | none => m.1

def numbered (es : List Entity) : List Entity := es.mapIdx fun n e => e.withOrder n

def Consecutive (es : List Entity) : Prop := es.map (·.order) = (List.range es.length).map Int.ofNat

variable {t : EntityType} {parent : Option Identifier} {es : List Entity}

theorem consecutiveNumbered (es : List Entity) : Consecutive (numbered es) := by
  simp only [Consecutive, numbered, List.length_mapIdx]
  apply List.ext_getElem <;> simp

theorem consecutiveDistinct (c : Consecutive es) : (es.map (·.order)).Nodup := by
  rw [c]
  exact (List.nodup_map_iff fun _ _ => Int.ofNat.inj).mpr List.nodup_range

theorem idsNumbered (es : List Entity) : (numbered es).map (·.id) = es.map (·.id) := by
  apply List.ext_getElem <;> simp [numbered]

theorem numberedIncreasing (es : List Entity) : (numbered es).Pairwise fun a b => a.order < b.order := by
  rw [List.pairwise_iff_getElem]
  intro i j _ _ less
  simpa [numbered] using less

theorem inGroupOwn (t : EntityType) (e : Entity) : e.inGroup t e.parent = true := by simp [inGroup]

theorem inGroupPlaced (order : List Nat) (m : Entity × Nat) :
    (placedBy order m).inGroup t parent = m.1.inGroup t parent := by
  unfold placedBy
  split <;> rfl

theorem filterByMembers (t : EntityType) (parent : Option Identifier) (es : List Entity) :
    es.filter (·.inGroup t parent) = (members t parent es).map (·.1) := by
  have kept := List.filter_map (f := Prod.fst) (p := fun e : Entity => e.inGroup t parent) (l := es.zipIdx)
  rwa [List.zipIdx_map_fst] at kept

theorem renumberByPositions (order : List Nat) (es : List Entity) :
    renumber order es = es.zipIdx.map (placedBy order) := by
  rw [renumber, List.mapIdx_eq_zipIdx_map]
  rfl

theorem membersRenumber (order : List Nat) :
    members t parent (renumber order es) = (members t parent es).map fun m => (placedBy order m, m.2) := by
  have zipped : (renumber order es).zipIdx = es.zipIdx.map fun m => (placedBy order m, m.2) := by
    rw [renumberByPositions]
    apply List.ext_getElem <;> simp
  unfold members
  rw [zipped, List.filter_map]
  congr 1
  exact List.filter_congr fun m _ => inGroupPlaced order m

theorem nodupPositions (t : EntityType) (parent : Option Identifier) (es : List Entity) :
    ((members t parent es).map (·.2)).Nodup := by
  have whole : (es.zipIdx.map Prod.snd).Nodup := by
    rw [List.zipIdx_map_snd]
    exact List.nodup_range'
  exact whole.sublist (List.filter_sublist.map _)

theorem positionsPerm (t : EntityType) (parent : Option Identifier) (es : List Entity) :
    (positions t parent es).Perm (members t parent es) := List.mergeSort_perm _ _

theorem groupPerm (t : EntityType) (parent : Option Identifier) (es : List Entity) :
    (group t parent es).Perm (es.filter (·.inGroup t parent)) := List.mergeSort_perm _ _

theorem groupSorted (t : EntityType) (parent : Option Identifier) (es : List Entity) :
    (group t parent es).Pairwise fun a b => a.order ≤ b.order := by
  have sorted : (group t parent es).Pairwise fun a b => decide (a.order ≤ b.order) = true :=
    List.pairwise_mergeSort (fun a b c => by simpa using fun h k => Int.le_trans h k)
      (fun a b => by simpa using Int.le_total a.order b.order) _
  simpa using sorted

theorem placedAlong {row : List (Entity × Nat)} (distinct : (row.map (·.2)).Nodup) :
    row.map (placedBy (row.map (·.2))) = numbered (row.map (·.1)) := by
  apply List.ext_getElem <;> simp only [numbered, List.length_map, List.length_mapIdx]
  intro n bound _
  have found : (row.map (·.2)).idxOf? row[n].2 = some n := by
    rw [List.idxOf?_eq_some_iff]
    refine ⟨by simpa using bound, by simp, fun j less same => ?_⟩
    have here : n < (row.map (·.2)).length := by simpa using bound
    have below : j < (row.map (·.2)).length := by omega
    have equal : (row.map (·.2))[j] = (row.map (·.2))[n] := by simpa using same
    have positions := distinct.getElem_inj_iff.mp equal
    omega
  simp [placedBy, found]

theorem groupRenumber {row : List (Entity × Nat)} (all : row.Perm (members t parent es)) :
    group t parent (renumber (row.map (·.2)) es) = numbered (row.map (·.1)) := by
  have distinct : (row.map (·.2)).Nodup := (all.map _).nodup_iff.mpr (nodupPositions t parent es)
  have perm : (group t parent (renumber (row.map (·.2)) es)).Perm (numbered (row.map (·.1))) := by
    rw [← placedAlong distinct]
    refine (groupPerm _ _ _).trans ?_
    rw [filterByMembers, membersRenumber, List.map_map]
    exact (all.map _).symm
  -- two sorted readings of the same entities agree, since the numbered one has no ties
  refine perm.eq_of_pairwise ?_ (groupSorted _ _ _) ((numberedIncreasing _).imp Int.le_of_lt)
  intro a b read given below above
  exact List.inj_on_of_nodup_map (consecutiveDistinct (consecutiveNumbered _)) (perm.mem_iff.mp read) given
    (Int.le_antisymm below above)

theorem groupUntouched {order : List Nat} (apart : ∀ m ∈ members t parent es, m.2 ∉ order) :
    group t parent (renumber order es) = group t parent es := by
  unfold group
  rw [filterByMembers, filterByMembers, membersRenumber, List.map_map]
  congr 1
  refine List.map_congr_left fun m inside => ?_
  have missing : order.idxOf? m.2 = none := List.idxOf?_eq_none_iff.mpr (apart m inside)
  simp [placedBy, missing]

def Apart (t : EntityType) (p q : Option Identifier) : Prop :=
  ∀ x : Entity, x.inGroup t p = true → x.inGroup t q = false

def SameGroup (t : EntityType) (p q : Option Identifier) : Prop := ∀ x : Entity, x.inGroup t p = x.inGroup t q

theorem sameOrApart (t : EntityType) (p q : Option Identifier) : SameGroup t p q ∨ Apart t p q := by
  by_cases top : t.isTop
  · exact .inl fun x => by simp [inGroup, top]
  · by_cases equal : p = q
    · exact .inl fun x => by rw [equal]
    · refine .inr fun x mine => ?_
      have parent : x.parent = p := by simpa [inGroup, top] using mine
      simpa [inGroup, top, parent] using equal

theorem outsideApart {e : Entity} (apart : Apart t parent e.parent) : e.inGroup t parent = false := by
  by_contra member
  have out := apart e (by simpa using member)
  rw [inGroupOwn] at out
  contradiction

theorem groupOfSame {p q : Option Identifier} (same : SameGroup t p q) (es : List Entity) :
    group t p es = group t q es := by
  unfold group
  rw [List.filter_congr fun x _ => same x]

theorem positionInside {m : Entity × Nat} (inside : m ∈ members t parent es) : es[m.2]? = some m.1 :=
  List.mem_zipIdx_iff_getElem?.mp (List.mem_filter.mp inside).1

theorem positionsApart {p q : Option Identifier} (apart : Apart t p q) :
    ∀ m ∈ members t p es, m.2 ∉ (positions t q es).map (·.2) := by
  intro m inside listed
  obtain ⟨x, listed, same⟩ := List.mem_map.mp listed
  have other : x ∈ members t q es := (positionsPerm _ _ _).mem_iff.mp listed
  have equal : x.1 = m.1 := by
    have found := positionInside other
    rw [same, positionInside inside] at found
    exact (Option.some.inj found).symm
  have out := apart m.1 (List.mem_filter.mp inside).2
  rw [← equal, (List.mem_filter.mp other).2] at out
  contradiction

end SafetyCase.Entity
