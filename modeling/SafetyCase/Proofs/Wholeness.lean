import SafetyCase.Command.Payload
import SafetyCase.Proofs.Linking
/-! Whole documents: what hangs below something has its parent in the collection that the kind prescribes,
collections that the kind does not use are empty, and stored ratings bear the band of their axes. A document
stays whole under each change of its tree, given what the store checks of a new entity and what an accepted
edit sets. -/
namespace SafetyCase

def Kind.Uses (k : Kind) (t : EntityType) : Prop := t = k.topLevel ∨ (k.parentType? t).isSome = true

instance (k : Kind) (t : EntityType) : Decidable (k.Uses t) := inferInstanceAs (Decidable (_ ∨ _))

theorem Kind.parentOfUsed {k : Kind} {t : EntityType} (used : k.Uses t) (below : t.isTop = false) :
    ∃ p, k.parentType? t = some p := by
  rcases used with rfl | has
  · cases k <;> contradiction
  · exact Option.isSome_iff_exists.mp has

theorem Target.typeUsed {k : Kind} {target : Target} {t : EntityType} (type : target.entityType? k = some t) :
    k.Uses t := by
  cases target <;> cases k <;> cases type <;> decide

namespace Entity

def Rated (e : Entity) : Prop :=
  ∀ (slot : RatingSlot) (v : Value), e.get? slot.toAttribute = some v →
    v = .absent ∨ ∃ r : Rating, v = .rating r ∧ r.Consistent

def RatingsOnly (changes : List (String × Value)) : Prop :=
  ∀ c ∈ changes, ∀ slot : RatingSlot, c.1 = slot.toAttribute.name → c.2 = .absent ∨ ∃ r, c.2 = .rating r

def NoRatings (data : List (String × Value)) : Prop := ∀ c ∈ data, ∀ slot : RatingSlot, c.1 ≠ slot.toAttribute.name

theorem getMapped [BEq κ] [LawfulBEq κ] (fields : List (κ × α)) (f : κ → α → β) (a : κ) :
    (fields.map fun x => (x.1, f x.1 x.2)).lookup a = (fields.lookup a).map (f a) := by
  induction fields with
  | nil => rfl
  | cons x rest ih =>
    obtain ⟨b, v⟩ := x
    by_cases same : a = b
    · subst same
      simp
    · simp [List.lookup_cons, beq_false_of_ne same, ih]

theorem getSet (e : Entity) (a b : Attribute) (v : Value) :
    (e.set a v).get? b = (e.get? b).map fun old => if b = a then v else old := by
  have pairs : (e.set a v).attributes = e.attributes.map fun x => (x.1, if x.1 = a then v else x.2) :=
    List.map_congr_left fun x _ => by split <;> simp_all
  rw [get?, pairs, getMapped e.attributes fun b old => if b = a then v else old]
  rfl

theorem ratedAssign {e : Entity} {a : Attribute} {v : Value} (rated : e.Rated)
    (harmless : ∀ slot : RatingSlot, a = slot.toAttribute → v = .absent ∨ ∃ r, v = .rating r) :
    (e.assign a v).Rated := by
  have stored (w : Value) (fine : ∀ slot : RatingSlot, a = slot.toAttribute →
      w = .absent ∨ ∃ r : Rating, w = .rating r ∧ r.Consistent) :
      (e.set a w).Rated := by
    intro slot u held
    rw [getSet] at held
    obtain ⟨old, before, rfl⟩ := Option.map_eq_some_iff.mp held
    split
    · rename_i same
      exact fine slot same.symm
    · exact rated slot old before
  cases v with
  | rating r => exact stored _ fun _ _ => .inr ⟨_, rfl, Rating.consistentMerge _ _ _⟩
  | data j =>
    refine stored _ fun slot same => .inl ?_
    rcases harmless slot same with absent | ⟨_, rating⟩
    · exact absent
    · contradiction

theorem ratedPatch {t : EntityType} {changes : List (String × Value)} {e : Entity} (rated : e.Rated)
    (harmless : RatingsOnly changes) : (e.patch t changes).1.Rated := by
  induction changes generalizing e with
  | nil => exact rated
  | cons c rest ih =>
    simp only [patch]
    split
    · exact rated
    · rename_i a named
      refine ih (ratedAssign rated fun slot same => harmless c List.mem_cons_self slot ?_)
        fun c listed => harmless c (List.mem_cons_of_mem _ listed)
      have spelt : a.name = c.1 := by simpa using List.find?_some named
      rw [← spelt, same]

theorem newUnrated {t : EntityType} {slot : RatingSlot} {v : Value}
    (given : t.attributes.lookup slot.toAttribute = some v) : v = .absent := by
  have absent : (t.attributes.lookup slot.toAttribute).getD .absent = .absent := by cases t <;> cases slot <;> rfl
  rwa [given] at absent

theorem lookupListed {data : List (String × Value)} {name : String} {v : Value} (found : data.lookup name = some v) :
    (name, v) ∈ data := by
  obtain ⟨before, after, same, _⟩ := List.lookup_eq_some_iff.mp found
  simp [same]

theorem builtForm {t : EntityType} {id : Identifier} {parent : Option Identifier} {data : List (String × Value)}
    {e : Entity} (built : build t id parent data = .ok e) : e.parent = (if t.isTop then none else parent) ∧
      e.attributes = t.attributes.map fun f => (f.1, (data.lookup f.1.name).getD f.2) := by
  unfold build at built
  dsimp only at built
  split at built
  · contradiction
  · split at built
    · contradiction
    · cases built
      exact ⟨rfl, rfl⟩

theorem builtGroup {t : EntityType} {id : Identifier} {parent : Option Identifier} {data : List (String × Value)}
    {e : Entity} (built : build t id parent data = .ok e) : SameGroup t parent e.parent := by
  intro x
  cases top : t.isTop <;> simp [inGroup, (builtForm built).1, top]

theorem ratedBuild {t : EntityType} {id : Identifier} {parent : Option Identifier} {data : List (String × Value)}
    {e : Entity} (built : build t id parent data = .ok e) (none : NoRatings data) : e.Rated := by
  intro slot v held
  rw [get?, (builtForm built).2, getMapped t.attributes fun a default => (data.lookup a.name).getD default] at held
  obtain ⟨default, given, rfl⟩ := Option.map_eq_some_iff.mp held
  have missing : data.lookup slot.toAttribute.name = .none := by
    refine Option.eq_none_iff_forall_not_mem.mpr fun w found => ?_
    exact none _ (lookupListed found) slot rfl
  rw [missing]
  exact .inl (newUnrated given)

end Entity

namespace Document

def Attached (d : Document) (t : EntityType) (e : Entity) : Prop :=
  t.isTop = false → ∃ p, d.kind.parentType? t = some p ∧ ∃ q ∈ d.collection p, e.parent = some q.id

structure Whole (d : Document) : Prop where
  parented : ∀ t, ∀ e ∈ d.collection t, d.Attached t e
  unused : ∀ t, ¬ d.kind.Uses t → d.collection t = []
  rated : ∀ t, ∀ e ∈ d.collection t, e.Rated

variable {d : Document} {t : EntityType} {es : List Entity}

theorem ratedUnplaced {x y : Entity} (same : y.unplaced = x.unplaced) (rated : y.Rated) : x.Rated := by
  have fields := (Entity.unplacedFields same).2.2
  intro slot v held
  exact rated slot v (by rwa [Entity.get?, fields])

theorem Attached.under {x : Entity} (attached : d.Attached t x) {p : EntityType} (child : t ∈ d.kind.children p) :
    ∃ q ∈ d.collection p, x.parent = some q.id := by
  obtain ⟨p', type, above⟩ := attached (Kind.childNotTop child)
  cases type.symm.trans (Kind.parentTypeIff.mpr child)
  exact above

theorem Whole.linked (whole : d.Whole) : d.Linked := fun _ t child x inside => (whole.parented t x inside).under child

theorem linkedAttached (linked : d.Linked) (used : d.kind.Uses t) {x : Entity} (inside : x ∈ d.collection t) :
    d.Attached t x := by
  intro below
  obtain ⟨p, type⟩ := Kind.parentOfUsed used below
  exact ⟨p, type, linked p t (Kind.parentTypeIff.mp type) x inside⟩

theorem Whole.set (whole : d.Whole) (linked : (d.setCollection t es).Linked) (used : ¬ d.kind.Uses t → es = [])
    (rated : ∀ x ∈ es, x.Rated) : (d.setCollection t es).Whole := by
  have unused (s : EntityType) (out : ¬ (d.setCollection t es).kind.Uses s) :
      (d.setCollection t es).collection s = [] := by
    rw [kindSetCollection] at out
    rw [collectionSet]
    split
    · rename_i same
      exact used (same ▸ out)
    · exact whole.unused s out
  refine ⟨fun s x inside => ?_, unused, fun s x inside => ?_⟩
  · refine linkedAttached linked ?_ inside
    by_contra out
    rw [unused s out] at inside
    contradiction
  · rw [collectionSet] at inside
    split at inside
    · exact rated x inside
    · exact whole.rated s x inside

theorem Whole.reheaded {d' : Document} (whole : d.Whole) (tree : ∀ t, d'.collection t = d.collection t)
    (kind : d'.kind = d.kind) : d'.Whole := by
  refine ⟨fun t e inside below => ?_, fun t unused => ?_, fun t e inside => ?_⟩
  · rw [tree] at inside
    obtain ⟨p, parent, q, present, named⟩ := whole.parented t e inside below
    exact ⟨p, by rwa [kind], q, by rwa [tree], named⟩
  · rw [tree]
    exact whole.unused t (by rwa [kind] at unused)
  · rw [tree] at inside
    exact whole.rated t e inside

theorem wholeRenumber (whole : d.Whole) (order : List Nat) :
    (d.setCollection t (Entity.renumber order (d.collection t))).Whole := by
  refine whole.set (linkedRenumber whole.linked order) (fun unused => ?_) fun x inside => ?_
  · simp [whole.unused t unused, Entity.renumber]
  · obtain ⟨y, before, same⟩ := memRenumber inside
    exact ratedUnplaced same (whole.rated t y before)

theorem wholeReorder (whole : d.Whole) {parent : Option Identifier} {ids : List Identifier} {d' : Document}
    (done : d.reorder t parent ids = .ok d') : d'.Whole := by
  rw [(reorderResult done).result]
  exact wholeRenumber whole _

theorem wholeInsert (whole : d.Whole) (used : d.kind.Uses t) {e : Entity} (attached : d.Attached t e) (rated : e.Rated)
    (position : Option Int) : (d.insert t e position).Whole := by
  have linked := linkedInsert whole.linked (fun _ child => attached.under child) position
  obtain ⟨n, _, same⟩ := insertAsInserted d t e position
  rw [same] at linked ⊢
  refine whole.set linked (absurd used) fun x inside => ?_
  obtain ⟨y, before, like⟩ := memRenumber inside
  rcases List.mem_append.mp before with old | new
  · exact ratedUnplaced like (whole.rated t y old)
  · rw [List.mem_singleton.mp new] at like
    exact ratedUnplaced like rated

theorem wholeRemoveOne (whole : d.Whole) {e : Entity} (bare : d.Bare d.kind t e) : (d.removeOne t e).Whole := by
  refine whole.set (linkedRemoveOne whole.linked bare) (fun unused => ?_) fun x inside => ?_
  · simp [whole.unused t unused, Entity.renumberGroup, Entity.renumber]
  · obtain ⟨y, before, same⟩ := (removeOnePruned d t e).origin (t := t) (by rwa [removeOne, collectionSetOwn])
    exact ratedUnplaced same (whole.rated t y before)

theorem wholeModify (whole : d.Whole) {x y : Entity} {key : Identifier} (found : d.find? t key = some x)
    (sameId : y.id = x.id) (sameParent : y.parent = x.parent) (rated : y.Rated) :
    (d.modifyEntity t key fun _ => y).Whole := by
  refine whole.set (linkedModify whole.linked found sameId sameParent) (fun unused => ?_) fun z inside => ?_
  · simp [whole.unused t unused, modifyFirst]
  · rcases memModifyFirst inside with old | ⟨_, _, rfl⟩
    · exact whole.rated t z old
    · exact rated

end Document
end SafetyCase
