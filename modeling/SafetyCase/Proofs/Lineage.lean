import SafetyCase.Proofs.Frame
/-! Where the entities of a case come from while it is edited: from the document with which the editor began, under
the same parent, or from an identifier that was issued since. Places are left out of account; they are all
that the edits of others move. -/
namespace SafetyCase

namespace Document

def Descends (n : Nat) (c d : Document) : Prop :=
  ∀ t, ∀ y ∈ d.collection t,
    (∃ x ∈ c.collection t, x.id = y.id ∧ x.parent = y.parent) ∨ ∃ m, n < m ∧ y.id = .numbered m

variable {n m : Nat} {c d d' : Document} {t : EntityType} {x y e : Entity}

theorem Descends.refl (n : Nat) (d : Document) : d.Descends n d := fun _ x inside => .inl ⟨x, inside, rfl, rfl⟩

theorem Descends.trans (first : c.Descends n d) (second : d.Descends m d') (le : n ≤ m) : c.Descends n d' := by
  intro t z inside
  rcases second t z inside with ⟨y, between, id, parent⟩ | ⟨i, later, named⟩
  · rcases first t y between with ⟨x, old, sameId, sameParent⟩ | ⟨i, later, named⟩
    · exact .inl ⟨x, old, sameId.trans id, sameParent.trans parent⟩
    · exact .inr ⟨i, later, id ▸ named⟩
  · exact .inr ⟨i, by omega, named⟩

theorem Descends.parent (descends : c.Descends n d) (issued : c.IssuedBy n) (distinct : c.Distinct)
    (before : x ∈ c.collection t) (after : y ∈ d.collection t) (same : y.id = x.id) : y.parent = x.parent := by
  rcases descends t y after with ⟨z, old, id, parent⟩ | ⟨i, later, named⟩
  · rw [← parent, List.inj_on_of_nodup_map (distinct t) old before (id.trans same)]
  · obtain ⟨j, bound, earlier⟩ := issued t x.id (List.mem_map.mpr ⟨x, before, rfl⟩)
    have equal := Identifier.numberedInj.mp (named.symm.trans (same.trans earlier))
    omega

theorem Descends.set {es : List Entity} (members : ∀ y ∈ es,
    (∃ x ∈ d.collection t, x.id = y.id ∧ x.parent = y.parent) ∨ ∃ m, n < m ∧ y.id = .numbered m) :
    d.Descends n (d.setCollection t es) := by
  intro s y inside
  rw [collectionSet] at inside
  split at inside
  · rename_i same
    subst same
    exact members y inside
  · exact .inl ⟨y, inside, rfl, rfl⟩

theorem Descends.reheaded (descends : c.Descends n d) (tree : ∀ t, d'.collection t = d.collection t) :
    c.Descends n d' := fun t y inside => descends t y (tree t ▸ inside)

theorem descendsInsert (fresh : e.id = .numbered (n + 1)) (position : Option Int) :
    d.Descends n (d.insert t e position) := by
  obtain ⟨i, _, same⟩ := insertAsInserted d t e position
  rw [same]
  refine .set fun y inside => ?_
  obtain ⟨x, before, like⟩ := memRenumber inside
  obtain ⟨id, parent, _⟩ := Entity.unplacedFields like
  rcases List.mem_append.mp before with old | new
  · exact .inl ⟨x, old, id, parent⟩
  · rw [List.mem_singleton.mp new, fresh] at id
    exact .inr ⟨n + 1, Nat.lt_succ_self n, id.symm⟩

theorem descendsModify {key : Identifier} (found : d.find? t key = some x) (id : y.id = x.id)
    (parent : y.parent = x.parent) : d.Descends n (d.modifyEntity t key fun _ => y) := by
  refine .set fun z inside => ?_
  rcases memModifyFirst inside with old | ⟨_, _, rfl⟩
  · exact .inl ⟨z, old, rfl, rfl⟩
  · exact .inl ⟨x, List.mem_of_find?_eq_some found, id.symm, parent.symm⟩

theorem descendsRemove {k : Kind} {id : Identifier} {policy : DeletePolicy} {out : List Entity × Document}
    (done : d.remove k t id policy = .ok out) : d.Descends n out.2 := by
  rw [removeResult done]
  intro s y inside
  obtain ⟨x, before, like⟩ := (removeTreePruned k (k.height t) t d id).origin inside
  obtain ⟨sameId, parent, _⟩ := Entity.unplacedFields like
  exact .inl ⟨x, before, sameId, parent⟩

theorem descendsReorder {parent : Option Identifier} {ids : List Identifier} (done : d.reorder t parent ids = .ok d') :
    d.Descends n d' := by
  rw [(reorderResult done).result]
  refine .set fun y inside => ?_
  obtain ⟨x, before, like⟩ := memRenumber inside
  obtain ⟨id, parent, _⟩ := Entity.unplacedFields like
  exact .inl ⟨x, before, id, parent⟩

end Document

namespace Store

structure Carries (n : Nat) (held : Document) (s : Store) : Prop where
  le : n ≤ s.issued
  found : ∃ c, s.find? held.id = some c ∧ c.Regular s.issued ∧ held.Descends n c

variable {n : Nat} {s s' before : Store} {held c d : Document} {e : Edit}

theorem Carries.wrote (named : d.id = held.id) (le : n ≤ before.issued) (regular : d.Regular before.issued)
    (descends : held.Descends n d) (same : s'.quiet = (before.put d).quiet) : s'.Carries n held := by
  have issued : s'.issued = before.issued := (issuedOfQuiet same).trans rfl
  refine ⟨issued ▸ le, d, ?_, issued ▸ regular, descends⟩
  rw [findSame (casesOfQuiet same), ← named]
  exact findPutSame before d

theorem Carries.saved (named : d.id = held.id) (le : n ≤ before.issued) (regular : d.Regular before.issued)
    (descends : held.Descends n d) (same : s'.quiet = (before.save d).quiet) : s'.Carries n held :=
  have tree (t : EntityType) : Document.collection { d with updatedAt := before.now } t = d.collection t := by
    cases t <;> rfl
  wrote (d := { d with updatedAt := before.now }) named le (regular.reheaded tree regular.phase)
    (descends.reheaded tree) same

theorem editCarries {r : Except Abort EditOutcome × Store} (step : EditStep s held e r) (carries : s.Carries n held) :
    r.2.Carries n held := by
  obtain ⟨le, c, stored, regular, descends⟩ := carries
  have named := (foundStored stored).2
  have rebuilt {t : EntityType} {es : List Entity} : (c.setCollection t es).id = held.id :=
    (Document.idSetCollection c t es).trans named
  cases step with
  | left _ same =>
    have issued := issuedOfQuiet same
    exact ⟨issued ▸ le, c, (findSame (casesOfQuiet same) _).trans stored, issued ▸ regular, descends⟩
  | @created _ _ position _ _ _ _ _ found _ built same =>
    cases stored.symm.trans found
    have fresh := Entity.idBuild built
    refine .saved rebuilt ?_ ?_ (descends.trans (Document.descendsInsert fresh position) le) same
    · exact Nat.le_succ_of_le le
    · exact Document.regularInsert regular fresh position
  | @updated t x y d changes _ _ _ _ found member _ same =>
    cases stored.symm.trans found
    have id := Entity.idPatch t changes x
    have parent := Entity.parentPatch t changes x
    exact .saved rebuilt le (Document.regularModify regular member id parent (Entity.orderPatch t changes x))
      (descends.trans (Document.descendsModify member id parent) le) same
  | @partway t x y d changes _ _ _ _ _ _ found member _ same =>
    cases stored.symm.trans found
    have id := Entity.idPatch t changes x
    have parent := Entity.parentPatch t changes x
    exact .wrote rebuilt le (Document.regularModify regular member id parent (Entity.orderPatch t changes x))
      (descends.trans (Document.descendsModify member id parent) le) same
  | deleted _ found removed same =>
    cases stored.symm.trans found
    exact .saved ((Document.continuesRemove removed).id.trans named) le (Document.regularRemove regular removed)
      (descends.trans (Document.descendsRemove removed) le) same
  | reordered _ found moved same =>
    cases stored.symm.trans found
    exact .saved ((Document.continuesReorder moved).id.trans named) le (Document.regularReorder regular moved)
      (descends.trans (Document.descendsReorder moved) le) same

theorem editsCarry (carries : s.Carries n held) (edits : List Edit) : (s.applyEdits held edits).2.Carries n held :=
  (editsKeep (P := Carries n held) (fun _ _ _ before => editCarries (applyEditStep _ held _) before) carries).2

end Store
end SafetyCase
