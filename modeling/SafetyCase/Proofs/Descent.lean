import SafetyCase.Proofs.Removal
/-! What hangs below an entity, and that a removal takes away the entity, all of that, and nothing else. Links may lead
nowhere and places may be tied; only identifiers must be distinct. Of the groups on the way, those that lose their
members lose all of them, so the numbering of what stays is touched in the entity's own group alone. -/
namespace SafetyCase.Document

inductive Below (d : Document) (k : Kind) (t : EntityType) (id : Identifier) : EntityType → Entity → Prop where
  | child {c : EntityType} {y : Entity} (type : c ∈ k.children t) (inside : y ∈ d.collection c)
      (under : y.parent = some id) : Below d k t id c y
  | deeper {s c : EntityType} {z y : Entity} (above : Below d k t id s z) (type : c ∈ k.children s)
      (inside : y ∈ d.collection c) (under : y.parent = some z.id) : Below d k t id c y

variable {d d' : Document} {k : Kind} {t s : EntityType} {id : Identifier} {y e : Entity}

theorem Below.inside (below : d.Below k t id s y) : y ∈ d.collection s := by
  cases below <;> assumption

theorem Below.lower (below : d.Below k t id s y) : k.height s < k.height t := by
  induction below with
  | child type => exact Kind.heightChild type
  | deeper _ type _ _ ih => exact Nat.lt_trans (Kind.heightChild type) ih

def Holds (d : Document) (k : Kind) (c : Document) : Prop :=
  ∀ p, ∀ s ∈ k.children p, ∀ y ∈ c.collection s, ∀ q ∈ d.collection p, y.parent = some q.id → q.id ∈ c.idsOf p

theorem holdsRemoveOne {c : Document} (holds : d.Holds k c) (bare : c.Bare k t e) : d.Holds k (c.removeOne t e) := by
  intro p s child y inside q old under
  obtain ⟨y', before, same⟩ := (removeOnePruned c t e).origin inside
  have under' : y'.parent = some q.id := (Entity.unplacedFields same).2.1.trans under
  have present := holds p s child y' before q old under'
  by_cases own : p = t
  · subst own
    have other : q.id ≠ e.id := by
      intro named
      have listed : y' ∈ c.siblings s (some e.id) := memSiblings.mpr ⟨before, by simp [Entity.inGroup, under', named]⟩
      rw [bare.childless s child] at listed
      contradiction
    rw [idsRemoveOne]
    exact (List.mem_erase_of_ne other).mpr present
  · rwa [idsOf, removeOne, collectionSetOther c _ own]

theorem removeTreeHolds (distinct : d.Distinct) {depth : Nat} (deep : k.height t ≤ depth) (id : Identifier) :
    d.Holds k (removeTree k depth t d id).2 := by
  have start : d.Holds k d := fun p _ _ _ _ q old _ => List.mem_map.mpr ⟨q, old, rfl⟩
  exact (removeTreeKeeps (k := k) (P := fun c => c.Distinct ∧ d.Holds k c) (fun _ c => c.1)
    (fun c t e ⟨distinct, holds⟩ bare => ⟨(removeOnePruned c t e).distinct distinct, holdsRemoveOne holds bare⟩) deep
    ⟨distinct, start⟩).2

theorem belowGone (distinct : d.Distinct) {depth : Nat} (deep : k.height t ≤ depth) (there : id ∈ d.idsOf t)
    (below : d.Below k t id s y) : y.id ∉ (removeTree k depth t d id).2.idsOf s := by
  have pruned := removeTreePruned k depth t d id
  have holds := removeTreeHolds distinct deep id
  have linked {c : EntityType} {y : Entity} (inside : y ∈ d.collection c)
      (left : y.id ∈ (removeTree k depth t d id).2.idsOf c) :
      ∃ x ∈ (removeTree k depth t d id).2.collection c, x.parent = y.parent := by
    obtain ⟨x, here, named⟩ := List.mem_map.mp left
    obtain ⟨x', before, same⟩ := pruned.origin here
    obtain ⟨ids, parents, _⟩ := Entity.unplacedFields same
    have equal : x' = y := List.inj_on_of_nodup_map (distinct c) before inside (ids.trans named)
    exact ⟨x, here, by rw [← parents, equal]⟩
  induction below with
  | child type inside under =>
    intro left
    obtain ⟨x, here, parent⟩ := linked inside left
    obtain ⟨e, old, rfl⟩ := List.mem_map.mp there
    exact removeTreeGone distinct (holds t _ type x here e old (parent.trans under))
  | deeper above type inside under ih =>
    intro left
    obtain ⟨x, here, parent⟩ := linked inside left
    exact ih (holds _ _ type x here _ above.inside (parent.trans under))

/-! What is doomed is given by type and identifier, since places change on the way. -/

section
variable {doom : EntityType → Identifier → Bool}

def spared (doom : EntityType → Identifier → Bool) (d : Document) (t : EntityType) : List Entity :=
  (d.collection t).filter fun y => !doom t y.id

def ChildrenDoomed (doom : EntityType → Identifier → Bool) (d : Document) (types : List EntityType)
    (id : Identifier) : Prop :=
  ∀ c ∈ types, ∀ y ∈ d.collection c, y.parent = some id → doom c y.id = true

def Closed (doom : EntityType → Identifier → Bool) (k : Kind) (d : Document) : Prop :=
  ∀ s, ∀ z ∈ d.collection s, doom s z.id = true → d.ChildrenDoomed doom (k.children s) z.id

def GroupDoomed (doom : EntityType → Identifier → Bool) (d : Document) (t : EntityType)
    (parent : Option Identifier) : Prop :=
  ∀ y ∈ d.collection t, y.inGroup t parent = true → doom t y.id = true

def Doomed (doom : EntityType → Identifier → Bool) (d : Document) (t : EntityType) (id : Identifier) : Prop :=
  ∀ x ∈ d.collection t, x.id = id → d.GroupDoomed doom t x.parent

theorem ChildrenDoomed.pruned (pruned : Pruned d d') {types : List EntityType}
    (doomed : d.ChildrenDoomed doom types id) : d'.ChildrenDoomed doom types id := by
  intro c listed y inside under
  obtain ⟨y', before, same⟩ := pruned.origin inside
  obtain ⟨ids, parents, _⟩ := Entity.unplacedFields same
  rw [← ids]
  exact doomed c listed y' before (parents.trans under)

theorem Closed.pruned (pruned : Pruned d d') (closed : d.Closed doom k) : d'.Closed doom k := by
  intro s z inside doomed
  obtain ⟨z', before, same⟩ := pruned.origin inside
  have ids := (Entity.unplacedFields same).1
  rw [← ids] at doomed ⊢
  exact (closed s z' before doomed).pruned pruned

theorem GroupDoomed.pruned (pruned : Pruned d d') {parent : Option Identifier} (doomed : d.GroupDoomed doom t parent) :
    d'.GroupDoomed doom t parent := by
  intro y inside member
  obtain ⟨y', before, same⟩ := pruned.origin inside
  obtain ⟨ids, parents, _⟩ := Entity.unplacedFields same
  rw [← ids]
  exact doomed y' before (by simpa only [Entity.inGroup, parents] using member)

theorem Doomed.pruned (pruned : Pruned d d') (doomed : d.Doomed doom t id) : d'.Doomed doom t id := by
  intro x here named
  obtain ⟨x', before, same⟩ := pruned.origin here
  obtain ⟨ids, parents, _⟩ := Entity.unplacedFields same
  rw [← parents]
  exact (doomed x' before (ids.trans named)).pruned pruned

theorem filterRenumber (keep : Identifier → Bool) {es : List Entity} {order : List Nat}
    (harmless : ∀ m ∈ es.zipIdx, m.2 ∈ order → keep m.1.id = false) :
    (Entity.renumber order es).filter (fun y => keep y.id) = es.filter fun y => keep y.id := by
  have ids (m : Entity × Nat) : (Entity.placedBy order m).id = m.1.id := by
    unfold Entity.placedBy
    split <;> rfl
  have apart : ((fun y : Entity => keep y.id) ∘ Entity.placedBy order) = (fun y : Entity => keep y.id) ∘ Prod.fst :=
    funext fun m => congrArg keep (ids m)
  rw [Entity.renumberByPositions, List.filter_map, apart]
  conv_rhs => rw [← List.zipIdx_map_fst 0 es, List.filter_map]
  refine List.map_congr_left fun m listed => ?_
  obtain ⟨inside, kept⟩ := List.mem_filter.mp listed
  have free : m.2 ∉ order := fun numbered => by simp [harmless m inside numbered] at kept
  simp [Entity.placedBy, List.idxOf?_eq_none_iff.mpr free]

theorem sparedRemoveOne (doomed : d.GroupDoomed doom t e.parent)
    (self : doom t e.id = true) (s : EntityType) : (d.removeOne t e).spared doom s = d.spared doom s := by
  by_cases own : s = t
  · subst own
    rw [spared, removeOne, collectionSetOwn, Entity.renumberGroup, filterRenumber fun i => !doom s i]
    · rw [Entity.filterErased, spared]
      intro x _ named
      have same : x.id = e.id := by simpa using named
      simp [same, self]
    · intro m listed numbered
      obtain ⟨x, positioned, same⟩ := List.mem_map.mp numbered
      have member := (Entity.positionsPerm s e.parent _).mem_iff.mp positioned
      have equal : m.1 = x.1 := by
        have found := List.mem_zipIdx_iff_getElem?.mp listed
        rw [← same, Entity.positionInside member] at found
        exact (Option.some.inj found).symm
      have inside := List.mem_of_getElem? (Entity.positionInside member)
      simp [equal, doomed x.1 (List.eraseP_subset inside) (List.mem_filter.mp member).2]
  · rw [spared, removeOne, collectionSetOther d _ own, spared]

theorem sparedEach {remove : Document → Identifier → List Entity × Document} (pruned : ∀ d id, Pruned d (remove d id).2)
    (each : ∀ d id, d.Distinct → d.Closed doom k → d.Doomed doom t id →
      ∀ s, (remove d id).2.spared doom s = d.spared doom s)
    {ids : List Identifier} {d : Document} (distinct : d.Distinct) (closed : d.Closed doom k)
    (doomed : ∀ id ∈ ids, d.Doomed doom t id) (s : EntityType) :
    (removeEach remove ids d).2.spared doom s = d.spared doom s := by
  induction ids generalizing d with
  | nil => rfl
  | cons id rest ih =>
    obtain ⟨here, later⟩ := List.forall_mem_cons.mp doomed
    have first := pruned d id
    exact (ih (first.distinct distinct) (closed.pruned first) fun i listed => (later i listed).pruned first).trans
      (each d id distinct closed here s)

theorem eachDoomed (distinct : d.Distinct) {types : List EntityType} {parent : Identifier} {c : EntityType}
    (listed : c ∈ types) (below : c.isTop = false) (doomed : d.ChildrenDoomed doom types parent) :
    ∀ i ∈ (d.siblings c (some parent)).map (·.id), d.Doomed doom c i := by
  rintro i named x inside same y other member
  obtain ⟨z, sibling, rfl⟩ := List.mem_map.mp named
  obtain ⟨old, under⟩ := memSiblings.mp sibling
  obtain rfl : x = z := List.inj_on_of_nodup_map (distinct c) inside old same
  have own : x.parent = some parent := by simpa [Entity.inGroup, below] using under
  exact doomed c listed y other (by simpa [Entity.inGroup, below, own] using member)

theorem sparedChildren {remove : EntityType → Document → Identifier → List Entity × Document}
    (pruned : ∀ t d id, Pruned d (remove t d id).2)
    (each : ∀ t d id, d.Distinct → d.Closed doom k → d.Doomed doom t id →
      ∀ s, (remove t d id).2.spared doom s = d.spared doom s)
    {parent : Identifier} {types : List EntityType} (below : ∀ c ∈ types, c.isTop = false) {d : Document}
    (distinct : d.Distinct) (closed : d.Closed doom k) (doomed : d.ChildrenDoomed doom types parent) (s : EntityType) :
    (removeChildren remove parent types d).2.spared doom s = d.spared doom s := by
  induction types generalizing d with
  | nil => rfl
  | cons c rest ih =>
    have first := removeEachPruned (pruned c) ((d.siblings c (some parent)).map (·.id)) d
    have doomedRest : d.ChildrenDoomed doom rest parent := fun c listed => doomed c (List.mem_cons_of_mem _ listed)
    refine (ih (fun c listed => below c (List.mem_cons_of_mem _ listed)) (first.distinct distinct) (closed.pruned first)
      (doomedRest.pruned first)).trans (sparedEach (pruned c) (each c) distinct closed ?_ s)
    exact eachDoomed distinct List.mem_cons_self (below c List.mem_cons_self) doomed

theorem sparedTree {depth : Nat} (distinct : d.Distinct) (closed : d.Closed doom k) (doomed : d.Doomed doom t id)
    (s : EntityType) : (removeTree k depth t d id).2.spared doom s = d.spared doom s := by
  induction depth generalizing t d id s with
  | zero =>
    simp only [removeTree]
    split
    · rfl
    · rename_i e found
      have inside := List.mem_of_find?_eq_some found
      have named : e.id = id := by simpa using List.find?_some found
      have group := doomed e inside named
      exact sparedRemoveOne group (group e inside (Entity.inGroupOwn t e)) s
  | succ depth ih =>
    simp only [removeTree]
    split
    · rfl
    · rename_i e found
      have inside := List.mem_of_find?_eq_some found
      obtain rfl : e.id = id := by simpa using List.find?_some found
      have group := doomed e inside rfl
      have self := group e inside (Entity.inGroupOwn t e)
      have pruned := removeChildrenPruned (removeTreePruned k depth) e.id (k.children t) d
      have lower := sparedChildren (removeTreePruned k depth)
        (fun _ _ _ distinct closed doomed => ih distinct closed doomed)
        (fun c child => Kind.childNotTop child) distinct closed (closed t e inside self)
      exact (sparedRemoveOne (group.pruned pruned) self s).trans (lower s)

theorem removeTreeLast (depth : Nat) (distinct : d.Distinct) (closed : d.Closed doom k)
    (doomed : d.ChildrenDoomed doom (k.children t) id) (found : d.find? t id = some e) :
    ∃ c, Pruned d c ∧ (removeTree k depth t d id).2 = c.removeOne t e ∧ ∀ s, c.spared doom s = d.spared doom s := by
  cases depth with
  | zero => exact ⟨d, .refl d, by simp [removeTree, found], fun _ => rfl⟩
  | succ depth =>
    refine ⟨_, removeChildrenPruned (removeTreePruned k depth) id (k.children t) d, by simp [removeTree, found], ?_⟩
    exact sparedChildren (removeTreePruned k depth)
      (fun _ _ _ distinct closed doomed => sparedTree distinct closed doomed)
      (fun c child => Kind.childNotTop child) distinct closed doomed

end

/-- What a removal does: the entity is out of its group, all below it is gone, and all else is as it was. -/
structure Severed (k : Kind) (d : Document) (t : EntityType) (e : Entity) (d' : Document) : Prop where
  header : d'.header = d.header
  own : d'.collection t = Entity.removed t e (d.collection t)
  rest : ∀ s ≠ t, (d'.collection s).Sublist (d.collection s)
  left : ∀ s ≠ t, ∀ y ∈ d.collection s, y ∈ d'.collection s ↔ ¬d.Below k t e.id s y

open Classical in
noncomputable def isBelow (d : Document) (k : Kind) (t : EntityType) (id : Identifier) (s : EntityType)
    (i : Identifier) : Bool :=
  decide (∃ y, d.Below k t id s y ∧ y.id = i)

theorem isBelowIff (distinct : d.Distinct) (inside : y ∈ d.collection s) :
    d.isBelow k t id s y.id = true ↔ d.Below k t id s y := by
  simp only [isBelow, decide_eq_true_eq]
  constructor
  · rintro ⟨z, below, same⟩
    obtain rfl : z = y := List.inj_on_of_nodup_map (distinct s) below.inside inside same
    exact below
  · exact fun below => ⟨y, below, rfl⟩

theorem isBelowLower (i : Identifier) : d.isBelow k t id t i = false := by
  simp only [isBelow, decide_eq_false_iff_not]
  rintro ⟨y, below, _⟩
  exact Nat.lt_irrefl _ below.lower

theorem removeTreeSevered (distinct : d.Distinct) (found : d.find? t id = some e) {depth : Nat}
    (deep : k.height t ≤ depth) : Severed k d t e (removeTree k depth t d id).2 := by
  have inside := List.mem_of_find?_eq_some found
  obtain rfl : e.id = id := by simpa using List.find?_some found
  have there : e.id ∈ d.idsOf t := List.mem_map.mpr ⟨e, inside, rfl⟩
  have closed : d.Closed (d.isBelow k t e.id) k := fun s z old below c child y inside under =>
    (isBelowIff distinct inside).mpr (.deeper ((isBelowIff distinct old).mp below) child inside under)
  have children : d.ChildrenDoomed (d.isBelow k t e.id) (k.children t) e.id := fun c child y inside under =>
    (isBelowIff distinct inside).mpr (.child child inside under)
  have gone {s : EntityType} {y : Entity} (below : d.Below k t e.id s y) := belowGone distinct deep there below
  obtain ⟨c, pruned, last, kept⟩ := removeTreeLast depth distinct closed children found
  rw [last] at gone ⊢
  have same : c.collection t = d.collection t := by simpa [spared, isBelowLower] using kept t
  have others (s : EntityType) (other : s ≠ t) : (c.removeOne t e).collection s = d.spared (d.isBelow k t e.id) s := by
    have untouched : (c.removeOne t e).collection s = c.collection s := collectionSetOther c _ other
    rw [untouched, ← kept s]
    refine (List.filter_eq_self.mpr fun y inside => ?_).symm
    simp only [isBelow, Bool.not_eq_true', decide_eq_false_iff_not]
    rintro ⟨z, below, named⟩
    exact gone below (List.mem_map.mpr ⟨y, untouched ▸ inside, named.symm⟩)
  refine ⟨(headerSet c t _).trans pruned.header, ?_, fun s other => ?_, fun s other y inside => ?_⟩
  · rw [removeOne, collectionSetOwn, same]
    rfl
  · rw [others s other]
    exact List.filter_sublist
  · rw [others s other, spared, List.mem_filter, ← isBelowIff distinct inside]
    simp [inside]

end SafetyCase.Document
