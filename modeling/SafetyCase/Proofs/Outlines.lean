import SafetyCase.Proofs.Calls
/-! What the resolver looks at: the header of a case, and of its entities their identifiers, parents and places. What
an entity holds besides never decides which entity is meant, so that setting fields leaves all references alone. -/
namespace SafetyCase

namespace Entity

def outline (x : Entity) : Entity := { x with attributes := [] }

@[simp] theorem idOutline (x : Entity) : x.outline.id = x.id := rfl
@[simp] theorem parentOutline (x : Entity) : x.outline.parent = x.parent := rfl
@[simp] theorem orderOutline (x : Entity) : x.outline.order = x.order := rfl

theorem groupOutline (t : EntityType) (parent : Option Identifier) (es : List Entity) :
    group t parent (es.map outline) = (group t parent es).map outline := by
  have kept : (es.map outline).filter (·.inGroup t parent) = (es.filter (·.inGroup t parent)).map outline := by
    rw [List.filter_map]
    rfl
  rw [group, kept, group]
  exact (List.map_mergeSort (f := outline) (r := fun a b => decide (a.order ≤ b.order))
    (s := fun a b => decide (a.order ≤ b.order)) fun _ _ _ _ => rfl).symm

end Entity

namespace Document

/-- A case with the outlines of its entities; the moment of its last change is dropped. -/
def outline (d : Document) : Document :=
  { d with
    steps := d.steps.map Entity.outline
    hazards := d.hazards.map Entity.outline
    controls := d.controls.map Entity.outline
    actions := d.actions.map Entity.outline
    timelineEvents := d.timelineEvents.map Entity.outline
    causes := d.causes.map Entity.outline
    updatedAt := d.createdAt }

variable (d : Document) (t : EntityType) (l : Location)

theorem collectionOutline : d.outline.collection t = (d.collection t).map Entity.outline := by cases t <;> rfl

@[simp] theorem kindOutline : d.outline.kind = d.kind := rfl

variable {d} in
theorem idOfOutline {d' : Document} (same : d'.outline = d.outline) : d'.id = d.id := by
  change d'.outline.id = d.outline.id
  rw [same]

variable {d} in
theorem kindOfOutline {d' : Document} (same : d'.outline = d.outline) : d'.kind = d.kind := by
  change d'.outline.kind = d.outline.kind
  rw [same]

theorem namedOutline (ref : Option String) : d.outline.named? t ref = (d.named? t ref).map Entity.outline := by
  cases ref with
  | none => rfl
  | some s =>
    simp only [named?, collectionOutline, Option.bind_some, List.find?_map]
    rfl

theorem findOutline (id : Identifier) : d.outline.find? t id = (d.find? t id).map Entity.outline := by
  simp only [find?, collectionOutline, List.find?_map]
  rfl

theorem siblingsOutline (parent : Option Identifier) :
    d.outline.siblings t parent = (d.siblings t parent).map Entity.outline := by
  rw [siblings, collectionOutline, Entity.groupOutline, siblings]

theorem memberOutline (group : List Entity) (index : Option Nat) :
    member? (group.map Entity.outline) index = (member? group index).map Entity.outline := by
  cases index with
  | none => rfl
  | some i => simp [member?]

theorem topOutline : d.outline.top l = (d.top l).map Entity.outline := by
  simp only [top, kindOutline, namedOutline, siblingsOutline, memberOutline]
  cases d.named? d.kind.topLevel l.stepId with
  | some x => rfl
  | none => cases member? (d.siblings d.kind.topLevel none) l.stepIndex <;> rfl

theorem secondOutline : d.outline.second l = (d.second l).map Entity.outline := by
  simp only [second, kindOutline, namedOutline, topOutline]
  cases d.named? d.kind.secondLevel l.hazardId with
  | some x => rfl
  | none =>
    simp only [Option.map_none]
    split
    · cases d.top l with
      | error fault => rfl
      | ok parent =>
        simp only [Except.map, Entity.idOutline, siblingsOutline, memberOutline]
        cases member? (d.siblings d.kind.secondLevel (some parent.id)) l.hazardIndex <;> rfl
    · rfl

theorem parentPlaceOutline (x : Entity) : d.outline.parentPlace x.outline = d.parentPlace x := by
  unfold parentPlace
  cases parent : x.parent with
  | none => simp [parent]
  | some p =>
    simp only [Entity.parentOutline, parent, Option.bind_some, kindOutline, findOutline]
    cases d.find? d.kind.topLevel p <;> rfl

theorem secondLevelOutline : d.outline.secondLevel = d.secondLevel.map Entity.outline := by
  rw [secondLevel, secondLevel, kindOutline, collectionOutline]
  refine (List.map_mergeSort fun x _ y _ => ?_).symm
  simp only [readingLe, parentPlaceOutline, Entity.orderOutline]
  rfl

theorem firstOutline (type : EntityType) (es : List Entity) :
    firstOf type (es.map Entity.outline) = (firstOf type es).map Entity.outline := by
  cases es <;> rfl

theorem defaultOutline : d.outline.secondOrDefault l = (d.secondOrDefault l).map Entity.outline := by
  unfold secondOrDefault defaultSecond
  simp only [kindOutline, secondOutline, topOutline, secondLevelOutline, firstOutline]
  split
  · rfl
  · split
    · cases d.top l with
      | error fault => rfl
      | ok parent => simp only [Except.map, Entity.idOutline, siblingsOutline, firstOutline]
    · rfl

theorem existingOutline : d.outline.existing t l = (d.existing t l).map Entity.outline := by
  unfold existing
  simp only [kindOutline, topOutline, secondOutline, namedOutline]
  split
  · rfl
  · split
    · rfl
    · by_cases control : d.kind.control? = some t
      · simp only [control, if_true]
        cases d.named? t l.controlId <;> rfl
      · simp only [control, if_false]
        cases d.named? t l.actionId <;> rfl

end Document

namespace Edit

theorem writeOutline {e : Edit} (intent : e.intent = .modify) (d : Document) : e.write? d.outline = e.write? d := by
  unfold write? Document.resolve
  simp only [Document.kindOutline, Document.defaultOutline, Document.existingOutline, intent]
  cases e.target.entityType? d.kind with
  | none => rfl
  | some t =>
    by_cases rates : e.target = .assessment
    · simp only [rates, if_true]
      cases d.secondOrDefault e.location <;> rfl
    · simp only [rates, if_false]
      cases d.existing t e.location with
      | error fault => rfl
      | ok x =>
        simp only [Except.map, write, intent]
        cases target : e.target with
        | assessment => exact absurd target rates
        | _ => rfl

end Edit
end SafetyCase
