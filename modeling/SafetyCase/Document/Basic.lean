import SafetyCase.Calendar
import SafetyCase.Document.Entity
/-! A case document: its header and six flat collections, addressed by entity type. The tree is held by
the parents and the places of the entities; nothing here keeps them consistent. -/
namespace SafetyCase

structure Document where
  id : Identifier
  kind : Kind
  title : String
  phase : String
  steps : List Entity := []
  hazards : List Entity := []
  controls : List Entity := []
  actions : List Entity := []
  timelineEvents : List Entity := []
  causes : List Entity := []
  createdAt : Moment
  updatedAt : Moment
  deriving DecidableEq

namespace Document

def collection (d : Document) : EntityType → List Entity
  | .step => d.steps
  | .hazard => d.hazards
  | .control => d.controls
  | .action => d.actions
  | .timelineEvent => d.timelineEvents
  | .cause => d.causes

def setCollection (d : Document) (t : EntityType) (es : List Entity) : Document :=
  match t with
  | .step => { d with steps := es }
  | .hazard => { d with hazards := es }
  | .control => { d with controls := es }
  | .action => { d with actions := es }
  | .timelineEvent => { d with timelineEvents := es }
  | .cause => { d with causes := es }

def find? (d : Document) (t : EntityType) (id : Identifier) : Option Entity :=
  (d.collection t).find? (·.id = id)

@[simp] theorem collectionSetOwn (d : Document) (t : EntityType) (es : List Entity) :
    (d.setCollection t es).collection t = es := by
  cases t <;> rfl

theorem collectionSetOther (d : Document) {s t : EntityType} (es : List Entity) (h : s ≠ t) :
    (d.setCollection t es).collection s = d.collection s := by
  cases s <;> cases t <;> first | rfl | exact absurd rfl h

@[simp] theorem setCollectionOwn (d : Document) (t : EntityType) :
    d.setCollection t (d.collection t) = d := by
  cases t <;> rfl

@[simp] theorem idSetCollection (d : Document) (t : EntityType) (es : List Entity) :
    (d.setCollection t es).id = d.id := by
  cases t <;> rfl

@[simp] theorem kindSetCollection (d : Document) (t : EntityType) (es : List Entity) :
    (d.setCollection t es).kind = d.kind := by
  cases t <;> rfl

@[simp] theorem phaseSetCollection (d : Document) (t : EntityType) (es : List Entity) :
    (d.setCollection t es).phase = d.phase := by
  cases t <;> rfl

theorem extCollection {d e : Document} (id : d.id = e.id) (kind : d.kind = e.kind) (title : d.title = e.title)
    (phase : d.phase = e.phase) (created : d.createdAt = e.createdAt) (updated : d.updatedAt = e.updatedAt)
    (same : ∀ t, d.collection t = e.collection t) : d = e := by
  cases d
  cases e
  obtain ⟨hs, hh, hc, ha, ht, hu⟩ : _ ∧ _ ∧ _ ∧ _ ∧ _ ∧ _ :=
    ⟨same .step, same .hazard, same .control, same .action, same .timelineEvent, same .cause⟩
  simp_all [collection]

end Document
end SafetyCase
