import SafetyCase.Reference
import SafetyCase.Store.Fault
/-! What a resolved edit addresses: the type that its target stands for, and by intent an entity, a place or a
group. An assessment always addresses an entity. An edit that cannot be resolved refers to something that is not
found, unless it is to reorder and brings no order. -/
namespace SafetyCase

theorem okOfMap {x : Except ε α} {f : α → β} {b : β} (done : x.map f = .ok b) : ∃ a, x = .ok a ∧ f a = b := by
  cases x with
  | error fault => contradiction
  | ok a => exact ⟨a, rfl, Except.ok.inj done⟩

inductive Resolved (d : Document) (e : Edit) : Resolution → Prop where
  | assessed {t : EntityType} {x : Entity} (rates : e.target = .assessment)
      (type : e.target.entityType? d.kind = some t) (found : d.secondOrDefault e.location = .ok x) :
      Resolved d e (.entity t x)
  | existing {t : EntityType} {x : Entity} (plain : e.target ≠ .assessment)
      (type : e.target.entityType? d.kind = some t) (intent : e.intent = .modify ∨ e.intent = .delete)
      (found : d.existing t e.location = .ok x) : Resolved d e (.entity t x)
  | placed {t : EntityType} {parent : Option Identifier} {position : Option Int} (plain : e.target ≠ .assessment)
      (type : e.target.entityType? d.kind = some t) (intent : e.intent = .add ∨ e.intent = .insert)
      (found : d.placement t e.intent e.location = .ok (.placement t parent position)) :
      Resolved d e (.placement t parent position)
  | ordered {t : EntityType} {parent : Option Identifier} {ids : List Identifier} {refs : List String}
      (plain : e.target ≠ .assessment) (type : e.target.entityType? d.kind = some t) (intent : e.intent = .reorder)
      (order : e.payload = some (.order refs)) (found : d.ordering t e.location refs = .ok (.ordering t parent ids)) :
      Resolved d e (.ordering t parent ids)

namespace Document

theorem placementForm {d : Document} {t : EntityType} {intent : Intent} {l : Location} {r : Resolution}
    (done : d.placement t intent l = .ok r) : ∃ parent position, r = .placement t parent position := by
  unfold placement at done
  split at done
  · exact ⟨_, _, (Except.ok.inj done).symm⟩
  · obtain ⟨parent, _, same⟩ := okOfMap done
    exact ⟨_, _, same.symm⟩

theorem orderingForm {d : Document} {t : EntityType} {l : Location} {refs : List String} {r : Resolution}
    (done : d.ordering t l refs = .ok r) : ∃ parent ids, r = .ordering t parent ids := by
  unfold ordering at done
  split at done
  · contradiction
  · split at done
    · contradiction
    · split at done
      · contradiction
      · exact ⟨_, _, (Except.ok.inj done).symm⟩

theorem resolved {d : Document} {e : Edit} {r : Resolution} (done : d.resolve e = .ok r) : Resolved d e r := by
  unfold resolve at done
  split at done
  · contradiction
  · rename_i t type
    split at done
    · rename_i rates
      obtain ⟨x, found, rfl⟩ := okOfMap done
      exact .assessed rates type found
    · rename_i plain
      split at done
      · rename_i intent
        obtain ⟨x, found, rfl⟩ := okOfMap done
        exact .existing plain type (.inl intent) found
      · rename_i intent
        obtain ⟨x, found, rfl⟩ := okOfMap done
        exact .existing plain type (.inr intent) found
      · rename_i intent
        obtain ⟨parent, position, rfl⟩ := placementForm done
        exact .placed plain type (.inl intent) (intent ▸ done)
      · rename_i intent
        obtain ⟨parent, position, rfl⟩ := placementForm done
        exact .placed plain type (.inr intent) (intent ▸ done)
      · rename_i intent
        split at done
        · rename_i order
          obtain ⟨parent, ids, rfl⟩ := orderingForm done
          exact .ordered plain type intent order done
        · contradiction
      · contradiction

def Lost (r : Except ReferenceFault α) : Prop :=
  ∀ fault, r = .error fault → (EditFault.reference fault).code = "ReferenceNotFound"

theorem lostMap {r : Except ReferenceFault α} (lost : Lost r) (f : α → β) : Lost (r.map f) := by
  cases r with
  | error fault =>
    rintro _ ⟨⟩
    exact lost fault rfl
  | ok a => simp [Lost, Except.map]

theorem lostFirst (t : EntityType) (es : List Entity) : Lost (firstOf t es) := by
  cases es <;> simp [Lost, firstOf, EditFault.code]

theorem lostTop (d : Document) (l : Location) : Lost (d.top l) := by
  unfold top
  dsimp only
  split <;> simp [Lost, EditFault.code]

theorem lostSecond (d : Document) (l : Location) : Lost (d.second l) := by
  have above := lostTop d l
  unfold second
  dsimp only
  repeat' split
  all_goals simp_all [Lost, EditFault.code]

theorem lostSecondOrDefault (d : Document) (l : Location) : Lost (d.secondOrDefault l) := by
  have above := lostTop d l
  unfold secondOrDefault defaultSecond
  split
  · exact lostSecond d l
  · split
    · split
      · simp_all [Lost]
      · exact lostFirst _ _
    · exact lostFirst _ _

theorem lostExisting (d : Document) (t : EntityType) (l : Location) : Lost (d.existing t l) := by
  unfold existing
  split
  · exact lostTop d l
  · split
    · exact lostSecond d l
    · dsimp only
      split <;> simp [Lost, EditFault.code]

theorem lostParent (d : Document) (t : EntityType) (l : Location) : Lost (d.parentFor t l) := by
  unfold parentFor
  split
  · simp [Lost]
  · split
    · refine lostMap ?_ _
      split
      · exact lostTop d l
      · exact lostFirst _ _
    · exact lostMap (lostSecondOrDefault d l) _

theorem lostPlacement (d : Document) (t : EntityType) (intent : Intent) (l : Location) :
    Lost (d.placement t intent l) := by
  unfold placement
  split
  · simp [Lost]
  · exact lostMap (lostParent d t l) _

theorem lostNamedEach (d : Document) (t : EntityType) (refs : List String) : Lost (d.namedEach t refs) := by
  induction refs with
  | nil => simp [Lost, namedEach]
  | cons ref rest ih =>
    unfold namedEach
    split
    · simp [Lost, EditFault.code]
    · exact lostMap ih _

theorem lostOrdering (d : Document) (t : EntityType) (l : Location) (refs : List String) :
    Lost (d.ordering t l refs) := by
  have members := lostNamedEach d t refs
  unfold ordering
  split
  · simp_all [Lost]
  · rename_i es _
    have under : Lost (d.groupParent t l es) := by
      unfold groupParent
      repeat' split
      all_goals first | exact lostParent d t l | simp [Lost]
    split
    · simp_all [Lost]
    · split <;> simp [Lost, EditFault.code]

theorem resolveLost (d : Document) (e : Edit) (ordered : e.intent = .reorder → ∃ refs, e.payload = some (.order refs)) :
    Lost (d.resolve e) := by
  unfold resolve
  split
  · simp [Lost, EditFault.code]
  · rename_i t _
    split
    · exact lostMap (lostSecondOrDefault d e.location) _
    · split
      · exact lostMap (lostExisting d t e.location) _
      · exact lostMap (lostExisting d t e.location) _
      · exact lostPlacement d t _ e.location
      · exact lostPlacement d t _ e.location
      · rename_i intent
        obtain ⟨refs, payload⟩ := ordered intent
        rw [payload]
        exact lostOrdering d t e.location refs
      · simp [Lost, EditFault.code]

end Document
end SafetyCase
