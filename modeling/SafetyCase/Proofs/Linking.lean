import SafetyCase.Proofs.Arrangement
import SafetyCase.Store.Write
/-! Parents that are there. A type that has a place in the kind of a document hangs below another one, and each of its
entities names a parent of that type; nothing is said of types for which the kind has no place. Every change of a
document's tree keeps this, given what the store checks of a new entity. -/
namespace SafetyCase.Document

def Linked (d : Document) : Prop :=
  ∀ p, ∀ t ∈ d.kind.children p, ∀ e ∈ d.collection t, ∃ q ∈ d.collection p, e.parent = some q.id

variable {d d' : Document} {t : EntityType} {es : List Entity}

theorem memRenumber {order : List Nat} {x : Entity} (inside : x ∈ Entity.renumber order es) :
    ∃ y ∈ es, y.unplaced = x.unplaced := by
  have listed : x.unplaced ∈ (Entity.renumber order es).map Entity.unplaced := List.mem_map.mpr ⟨x, inside, rfl⟩
  rw [Entity.unplacedRenumber] at listed
  exact List.mem_map.mp listed

theorem memModifyFirst {α : Type} {p : α → Bool} {f : α → α} {as : List α} {a : α} (inside : a ∈ modifyFirst p f as) :
    a ∈ as ∨ ∃ b ∈ as, a = f b := by
  induction as with
  | nil => contradiction
  | cons first rest ih =>
    simp only [modifyFirst] at inside
    split at inside
    · rcases List.mem_cons.mp inside with same | later
      · exact .inr ⟨first, List.mem_cons_self, same⟩
      · exact .inl (List.mem_cons_of_mem _ later)
    · rcases List.mem_cons.mp inside with same | later
      · exact .inl (same ▸ List.mem_cons_self)
      · rcases ih later with old | ⟨b, old, same⟩
        · exact .inl (List.mem_cons_of_mem _ old)
        · exact .inr ⟨b, List.mem_cons_of_mem _ old, same⟩

theorem idsModifyFirst {key : Identifier} {y : Entity} (named : y.id = key) (es : List Entity) :
    (modifyFirst (·.id = key) (fun _ => y) es).map (·.id) = es.map (·.id) := by
  induction es with
  | nil => rfl
  | cons e rest ih =>
    by_cases here : e.id = key
    · simp [modifyFirst, here, named]
    · simp [modifyFirst, here, ih]

theorem Linked.set (linked : d.Linked)
    (members : ∀ p, t ∈ d.kind.children p → ∀ x ∈ es, ∃ q ∈ d.collection p, x.parent = some q.id)
    (kept : ∀ c ∈ d.kind.children t, ∀ x ∈ d.collection c, ∀ q ∈ d.collection t, x.parent = some q.id →
      q.id ∈ es.map (·.id)) : (d.setCollection t es).Linked := by
  intro p c child x inside
  rw [kindSetCollection] at child
  have apart : c ≠ p := fun same => Nat.lt_irrefl _ (same ▸ Kind.heightChild child)
  by_cases below : c = t
  · subst below
    rw [collectionSetOwn] at inside
    rw [collectionSetOther d es apart.symm]
    exact members p child x inside
  · rw [collectionSetOther d es below] at inside
    obtain ⟨q, present, named⟩ := linked p c child x inside
    by_cases above : p = t
    · subst above
      obtain ⟨q', present', same⟩ := List.mem_map.mp (kept c child x inside q present named)
      rw [collectionSetOwn]
      exact ⟨q', present', by rw [named, same]⟩
    · rw [collectionSetOther d es above]
      exact ⟨q, present, named⟩

theorem Linked.reheaded (linked : d.Linked) (tree : ∀ t, d'.collection t = d.collection t) (kind : d'.kind = d.kind) :
    d'.Linked := by
  intro p c child
  rw [tree, tree]
  exact linked p c (kind ▸ child)

theorem Linked.parents (linked : d.Linked) {x y : Entity} (same : y.unplaced = x.unplaced)
    (inside : y ∈ d.collection t) : ∀ p, t ∈ d.kind.children p → ∃ q ∈ d.collection p, x.parent = some q.id := by
  intro p child
  rw [← (Entity.unplacedFields same).2.1]
  exact linked p t child y inside

theorem linkedRenumber (linked : d.Linked) (order : List Nat) :
    (d.setCollection t (Entity.renumber order (d.collection t))).Linked := by
  refine linked.set (fun p child x inside => ?_) fun c _ x _ q present _ => ?_
  · obtain ⟨y, before, same⟩ := memRenumber inside
    exact linked.parents same before p child
  · rw [Entity.idsRenumber]
    exact List.mem_map.mpr ⟨q, present, rfl⟩

theorem linkedInsert (linked : d.Linked) {e : Entity}
    (parented : ∀ p, t ∈ d.kind.children p → ∃ q ∈ d.collection p, e.parent = some q.id) (position : Option Int) :
    (d.insert t e position).Linked := by
  obtain ⟨i, _, same⟩ := insertAsInserted d t e position
  rw [same]
  refine linked.set (fun p child x inside => ?_) fun c _ x _ q present _ => ?_
  · obtain ⟨y, before, like⟩ := memRenumber inside
    rcases List.mem_append.mp before with old | new
    · exact linked.parents like old p child
    · rw [List.mem_singleton.mp new] at like
      rw [← (Entity.unplacedFields like).2.1]
      exact parented p child
  · rw [Entity.inserted, Entity.idsRenumber, List.map_append]
    exact List.mem_append_left _ (List.mem_map.mpr ⟨q, present, rfl⟩)

theorem linkedRemoveOne (linked : d.Linked) {e : Entity} (bare : d.Bare d.kind t e) : (d.removeOne t e).Linked := by
  refine linked.set (fun p child x inside => ?_) fun c child x inside q present named => ?_
  · obtain ⟨y, before, same⟩ := (removeOnePruned d t e).origin (t := t) (by rwa [removeOne, collectionSetOwn])
    exact linked.parents same before p child
  · have other : q.id ≠ e.id := by
      intro same
      have listed : x ∈ d.siblings c (some e.id) := memSiblings.mpr ⟨inside, by simp [Entity.inGroup, named, same]⟩
      rw [bare.childless c child] at listed
      contradiction
    rw [Entity.renumberGroup, Entity.idsRenumber]
    exact List.mem_map.mpr ⟨q, (List.mem_eraseP_of_neg (by simpa using other)).mpr present, rfl⟩

theorem linkedModify (linked : d.Linked) {x y : Entity} {key : Identifier} (found : d.find? t key = some x)
    (id : y.id = x.id) (parent : y.parent = x.parent) : (d.modifyEntity t key fun _ => y).Linked := by
  have named : y.id = key := by simpa [id] using List.find?_some found
  refine linked.set (fun p child z inside => ?_) fun c _ _ _ q old _ => ?_
  · rcases memModifyFirst inside with old | ⟨_, _, rfl⟩
    · exact linked p t child z old
    · rw [parent]
      exact linked p t child x (List.mem_of_find?_eq_some found)
  · rw [idsModifyFirst named]
    exact List.mem_map.mpr ⟨q, old, rfl⟩

theorem parentPresent {parent : Option Identifier} {p : EntityType} (parented : Store.lacksParent? d t parent = none)
    (child : t ∈ d.kind.children p) : ∃ q ∈ d.collection p, parent = some q.id := by
  unfold Store.lacksParent? at parented
  rw [Kind.parentTypeIff.mpr child] at parented
  dsimp only at parented
  split at parented
  · rename_i present
    obtain ⟨q, found⟩ := Option.isSome_iff_exists.mp present
    obtain ⟨i, given, found⟩ := Option.bind_eq_some_iff.mp found
    have named : q.id = i := by simpa using List.find?_some found
    exact ⟨q, List.mem_of_find?_eq_some found, by rw [given, named]⟩
  · contradiction

end SafetyCase.Document
