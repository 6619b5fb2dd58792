import SafetyCase.Proofs.Order
/-! Removal of an entity with all below it, as a sequence of single removals. Two facts carry every later
statement: nothing is ever added or altered except places, and when an entity goes, nothing hangs below
it any more. -/
namespace SafetyCase

def Entity.unplaced (e : Entity) : Entity := e.withOrder 0

theorem Entity.unplacedFields {x y : Entity} (same : y.unplaced = x.unplaced) :
    y.id = x.id ∧ y.parent = x.parent ∧ y.attributes = x.attributes := by
  cases x
  cases y
  simpa [Entity.unplaced, Entity.withOrder] using same

theorem Entity.unplacedRenumber (order : List Nat) (es : List Entity) :
    (Entity.renumber order es).map Entity.unplaced = es.map Entity.unplaced := by
  apply List.ext_getElem <;> simp only [Entity.renumber, List.length_map, List.length_mapIdx]
  intro i _ _
  simp only [List.getElem_map, List.getElem_mapIdx]
  split <;> rfl

namespace Document

def header (d : Document) : Document :=
  { d with steps := [], hazards := [], controls := [], actions := [], timelineEvents := [], causes := [] }

def idsOf (d : Document) (t : EntityType) : List Identifier := (d.collection t).map (·.id)

def Distinct (d : Document) : Prop := ∀ t, (d.idsOf t).Nodup

@[simp] theorem headerSet (d : Document) (t : EntityType) (es : List Entity) :
    (d.setCollection t es).header = d.header := by
  cases t <;> rfl

theorem kindOfHeader {d e : Document} (same : d.header = e.header) : d.kind = e.kind := by
  change d.header.kind = e.header.kind
  rw [same]

theorem collectionSet (d : Document) (s t : EntityType) (es : List Entity) :
    (d.setCollection t es).collection s = if s = t then es else d.collection s := by
  split
  · rename_i same
    rw [same, collectionSetOwn]
  · rename_i other
    exact collectionSetOther d es other

/-- The second document is the first with entities taken away; those that stay may have other places. -/
structure Pruned (d d' : Document) : Prop where
  header : d'.header = d.header
  kept : ∀ t, ((d'.collection t).map Entity.unplaced).Sublist ((d.collection t).map Entity.unplaced)

namespace Pruned

theorem refl (d : Document) : Pruned d d := ⟨rfl, fun _ => .refl _⟩

theorem trans {a b c : Document} (first : Pruned a b) (second : Pruned b c) : Pruned a c :=
  ⟨second.header.trans first.header, fun t => (second.kept t).trans (first.kept t)⟩

theorem origin {d d' : Document} (pruned : Pruned d d') {t : EntityType} {x : Entity} (inside : x ∈ d'.collection t) :
    ∃ y ∈ d.collection t, y.unplaced = x.unplaced :=
  List.mem_map.mp ((pruned.kept t).subset (List.mem_map.mpr ⟨x, inside, rfl⟩))

theorem ids {d d' : Document} (pruned : Pruned d d') (t : EntityType) : (d'.idsOf t).Sublist (d.idsOf t) := by
  have mapped := (pruned.kept t).map (·.id)
  rwa [List.map_map, List.map_map] at mapped

theorem distinct {d d' : Document} (pruned : Pruned d d') (distinct : d.Distinct) : d'.Distinct :=
  fun t => (distinct t).sublist (pruned.ids t)

theorem noSiblings {d d' : Document} (pruned : Pruned d d') {t : EntityType} {parent : Option Identifier}
    (none : d.siblings t parent = []) : d'.siblings t parent = [] := by
  refine List.eq_nil_iff_forall_not_mem.mpr fun x listed => ?_
  obtain ⟨inside, member⟩ := memSiblings.mp listed
  obtain ⟨y, before, same⟩ := pruned.origin inside
  have parents := (Entity.unplacedFields same).2.1
  have also : y ∈ d.siblings t parent := memSiblings.mpr ⟨before, by simpa only [Entity.inGroup, parents] using member⟩
  rw [none] at also
  contradiction

end Pruned

theorem removeOnePruned (d : Document) (t : EntityType) (e : Entity) : Pruned d (d.removeOne t e) := by
  refine ⟨headerSet d t _, fun s => ?_⟩
  rw [removeOne, collectionSet]
  split
  · rename_i same
    subst same
    rw [Entity.renumberGroup, Entity.unplacedRenumber]
    exact List.eraseP_sublist.map _
  · exact .refl _

theorem removeEachPruned {remove : Document → Identifier → List Entity × Document}
    (each : ∀ d id, Pruned d (remove d id).2) (ids : List Identifier) (d : Document) :
    Pruned d (removeEach remove ids d).2 := by
  induction ids generalizing d with
  | nil => exact .refl d
  | cons id rest ih => exact (each d id).trans (ih _)

theorem removeChildrenPruned {remove : EntityType → Document → Identifier → List Entity × Document}
    (each : ∀ t d id, Pruned d (remove t d id).2) (parent : Identifier) (types : List EntityType) (d : Document) :
    Pruned d (removeChildren remove parent types d).2 := by
  induction types generalizing d with
  | nil => exact .refl d
  | cons c rest ih => exact (removeEachPruned (each c) _ d).trans (ih _)

theorem removeTreePruned (k : Kind) (depth : Nat) (t : EntityType) (d : Document) (id : Identifier) :
    Pruned d (removeTree k depth t d id).2 := by
  induction depth generalizing t d id with
  | zero =>
    simp only [removeTree]
    split
    · exact .refl d
    · exact removeOnePruned d t _
  | succ depth ih =>
    simp only [removeTree]
    split
    · exact .refl d
    · exact (removeChildrenPruned ih id _ d).trans (removeOnePruned _ t _)

theorem idsRemoveOne (d : Document) (t : EntityType) (e : Entity) :
    (d.removeOne t e).idsOf t = (d.idsOf t).erase e.id := by
  rw [idsOf, removeOne, collectionSetOwn, Entity.renumberGroup, Entity.idsRenumber, idsOf,
    List.erase_eq_eraseP, List.eraseP_map]
  congr 2
  funext x
  simp [Bool.beq_eq_decide_eq, eq_comm]

theorem removeOneGone {d : Document} (t : EntityType) (e : Entity) (distinct : d.Distinct) :
    e.id ∉ (d.removeOne t e).idsOf t := by
  rw [idsRemoveOne]
  exact (distinct t).not_mem_erase

theorem removeTreeGone {k : Kind} {depth : Nat} {t : EntityType} {d : Document} {id : Identifier}
    (distinct : d.Distinct) : id ∉ (removeTree k depth t d id).2.idsOf t := by
  have absent (missing : d.find? t id = none) : id ∉ d.idsOf t := by
    intro listed
    obtain ⟨x, inside, same⟩ := List.mem_map.mp listed
    exact List.find?_eq_none.mp missing x inside (by simpa using same)
  cases depth with
  | zero =>
    simp only [removeTree]
    split
    · exact absent (by assumption)
    · rename_i e found
      have same : e.id = id := by simpa using List.find?_some found
      rw [← same]
      exact removeOneGone t e distinct
  | succ depth =>
    simp only [removeTree]
    split
    · exact absent (by assumption)
    · rename_i e found
      have same : e.id = id := by simpa using List.find?_some found
      have below := removeChildrenPruned (removeTreePruned k depth) id (k.children t) d
      rw [← same] at below ⊢
      exact removeOneGone t e (below.distinct distinct)

theorem removeEachGone {remove : Document → Identifier → List Entity × Document} {t : EntityType}
    (each : ∀ d id, Pruned d (remove d id).2) (gone : ∀ d id, d.Distinct → id ∉ (remove d id).2.idsOf t)
    {ids : List Identifier} {d : Document} (distinct : d.Distinct) :
    ∀ id ∈ ids, id ∉ (removeEach remove ids d).2.idsOf t := by
  induction ids generalizing d with
  | nil => simp
  | cons first rest ih =>
    intro id listed
    rcases List.mem_cons.mp listed with rfl | later
    · exact fun still => gone d id distinct (((removeEachPruned each rest _).ids t).subset still)
    · exact ih ((each d first).distinct distinct) id later

theorem removeEachEmptiesGroup {remove : Document → Identifier → List Entity × Document} {t : EntityType}
    {parent : Option Identifier} (each : ∀ d id, Pruned d (remove d id).2)
    (gone : ∀ d id, d.Distinct → id ∉ (remove d id).2.idsOf t) {d : Document} (distinct : d.Distinct) :
    (removeEach remove ((d.siblings t parent).map (·.id)) d).2.siblings t parent = [] := by
  refine List.eq_nil_iff_forall_not_mem.mpr fun x listed => ?_
  obtain ⟨inside, member⟩ := memSiblings.mp listed
  obtain ⟨y, before, same⟩ := (removeEachPruned each _ d).origin inside
  obtain ⟨ids, parents, _⟩ := Entity.unplacedFields same
  have also : y ∈ d.siblings t parent := memSiblings.mpr ⟨before, by simpa only [Entity.inGroup, parents] using member⟩
  have out := removeEachGone each gone distinct y.id (List.mem_map.mpr ⟨y, also, rfl⟩)
  exact out (List.mem_map.mpr ⟨x, inside, ids.symm⟩)

theorem removeChildrenEmptiesGroups {remove : EntityType → Document → Identifier → List Entity × Document}
    (each : ∀ t d id, Pruned d (remove t d id).2) (gone : ∀ t d id, d.Distinct → id ∉ (remove t d id).2.idsOf t)
    {parent : Identifier} {types : List EntityType} {d : Document} (distinct : d.Distinct) :
    ∀ c ∈ types, (removeChildren remove parent types d).2.siblings c (some parent) = [] := by
  induction types generalizing d with
  | nil => simp
  | cons first rest ih =>
    intro c listed
    rcases List.mem_cons.mp listed with rfl | later
    · exact (removeChildrenPruned each parent rest _).noSiblings
        (removeEachEmptiesGroup (each c) (gone c) distinct)
    · exact ih ((removeEachPruned (each first) _ d).distinct distinct) c later

structure Bare (d : Document) (k : Kind) (t : EntityType) (e : Entity) : Prop where
  known : ∀ x ∈ d.collection t, x.id = e.id → x.parent = e.parent
  childless : ∀ c ∈ k.children t, d.siblings c (some e.id) = []

section
variable {k : Kind} {P : Document → Prop}

theorem removeEachKeeps {remove : Document → Identifier → List Entity × Document}
    (each : ∀ d id, P d → P (remove d id).2) {ids : List Identifier} {d : Document} (start : P d) :
    P (removeEach remove ids d).2 := by
  induction ids generalizing d with
  | nil => exact start
  | cons id rest ih => exact ih (each d id start)

theorem removeChildrenKeeps {remove : EntityType → Document → Identifier → List Entity × Document}
    {parent : Identifier} {types : List EntityType} (each : ∀ t ∈ types, ∀ d id, P d → P (remove t d id).2)
    {d : Document} (start : P d) : P (removeChildren remove parent types d).2 := by
  induction types generalizing d with
  | nil => exact start
  | cons c rest ih =>
    exact ih (fun t listed => each t (List.mem_cons_of_mem c listed))
      (removeEachKeeps (each c List.mem_cons_self) start)

theorem removeTreeKeeps (distinct : ∀ d, P d → d.Distinct)
    (one : ∀ d t e, P d → d.Bare k t e → P (d.removeOne t e)) {depth : Nat} {t : EntityType} {d : Document}
    {id : Identifier} (deep : k.height t ≤ depth) (start : P d) : P (removeTree k depth t d id).2 := by
  have unique {t : EntityType} {d : Document} {e : Entity} {id : Identifier} (start : P d)
      (found : d.find? t id = some e) : ∀ x ∈ d.collection t, x.id = e.id → x = e := fun x inside same =>
    List.inj_on_of_nodup_map (distinct d start t) inside (List.mem_of_find?_eq_some found) same
  induction depth generalizing t d id with
  | zero =>
    simp only [removeTree]
    split
    · exact start
    · rename_i e found
      refine one d t e start ⟨fun x inside same => by rw [unique start found x inside same], ?_⟩
      simp [Kind.childrenAtHeightZero (Nat.le_zero.mp deep)]
  | succ depth ih =>
    simp only [removeTree]
    split
    · exact start
    · rename_i e found
      have same : e.id = id := by simpa using List.find?_some found
      have pruned := removeChildrenPruned (removeTreePruned k depth) id (k.children t) d
      have below : P (removeChildren (removeTree k depth) id (k.children t) d).2 :=
        removeChildrenKeeps (fun c listed d id => ih (by have := Kind.heightChild listed; omega)) start
      -- by now the entity may have another place, but not another parent, and its groups of children are empty
      refine one _ t e below ⟨fun x inside named => ?_, fun c listed => ?_⟩
      · obtain ⟨y, before, like⟩ := pruned.origin inside
        obtain ⟨ids, parents, _⟩ := Entity.unplacedFields like
        rw [← parents, unique start found y before (ids.trans named)]
      · rw [same]
        exact removeChildrenEmptiesGroups (removeTreePruned k depth) (fun _ _ _ => removeTreeGone) (distinct d start) c
          listed

end
end Document
end SafetyCase
