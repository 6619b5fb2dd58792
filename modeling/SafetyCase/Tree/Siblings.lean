import SafetyCase.Document.Basic
/-! Sibling groups: the entities of one type under one parent, in the order of their places; entities with
equal places keep the order of the collection. At the top all entities of a type are one group. -/
namespace SafetyCase

namespace Entity

def inGroup (t : EntityType) (parent : Option Identifier) (e : Entity) : Bool :=
  t.isTop || e.parent = parent

def group (t : EntityType) (parent : Option Identifier) (es : List Entity) : List Entity :=
  (es.filter (·.inGroup t parent)).mergeSort fun a b => a.order ≤ b.order

def positions (t : EntityType) (parent : Option Identifier) (es : List Entity) : List (Entity × Nat) :=
  (es.zipIdx.filter (·.1.inGroup t parent)).mergeSort fun a b => a.1.order ≤ b.1.order

def renumber (order : List Nat) (es : List Entity) : List Entity :=
  es.mapIdx fun i e => match order.idxOf? i with
    | some n => e.withOrder n
    | none => e

def renumberGroup (t : EntityType) (parent : Option Identifier) (es : List Entity) : List Entity :=
  renumber ((positions t parent es).map (·.2)) es

theorem mapPositions (t : EntityType) (parent : Option Identifier) (es : List Entity) :
    (positions t parent es).map (·.1) = group t parent es := by
  have sorted := List.map_mergeSort (f := Prod.fst) (r := fun a b : Entity × Nat => decide (a.1.order ≤ b.1.order))
    (s := fun a b : Entity => decide (a.order ≤ b.order)) (l := es.zipIdx.filter (·.1.inGroup t parent))
    (fun _ _ _ _ => rfl)
  have kept := List.filter_map (f := Prod.fst) (p := fun e : Entity => e.inGroup t parent) (l := es.zipIdx)
  rw [List.zipIdx_map_fst] at kept
  unfold positions group
  rw [sorted, kept]
  rfl

theorem lengthRenumber (order : List Nat) (es : List Entity) : (renumber order es).length = es.length := by
  simp [renumber]

theorem idsRenumber (order : List Nat) (es : List Entity) : (renumber order es).map (·.id) = es.map (·.id) := by
  apply List.ext_getElem <;> simp only [renumber, List.length_map, List.length_mapIdx]
  intro i _ _
  simp only [List.getElem_map, List.getElem_mapIdx]
  split <;> rfl

end Entity

namespace Document

def siblings (d : Document) (t : EntityType) (parent : Option Identifier) : List Entity :=
  Entity.group t parent (d.collection t)

def typesByName : List EntityType := [.action, .cause, .control, .hazard, .step, .timelineEvent]

def parentsIn (es : List Entity) : List (Option Identifier) :=
  ((es.map (·.parent)).eraseDups).mergeSort fun a b => (a.map (·.value)).getD 0 ≤ (b.map (·.value)).getD 0

def siblingGroups (d : Document) : List (EntityType × Option Identifier × List Entity) :=
  typesByName.flatMap fun t =>
    if t.isTop then
      if d.collection t = [] then [] else [(t, none, d.siblings t none)]
    else (parentsIn (d.collection t)).map fun parent => (t, parent, d.siblings t parent)

theorem memSiblings {d : Document} {t : EntityType} {parent : Option Identifier} {e : Entity} :
    e ∈ d.siblings t parent ↔ e ∈ d.collection t ∧ e.inGroup t parent = true := by
  simp [siblings, Entity.group, List.mem_mergeSort]

end Document
end SafetyCase
