import SafetyCase.Tree.Siblings
/-! A document as the outside sees it: plain values, each collection sorted by parent and place. Parents
are compared as numbers, which is the order of their texts; top-level entities come first. Entities
that agree in both keep the order of the collection. -/
namespace SafetyCase

def Rating.toJson (r : Rating) : Json :=
  .object [("severity", .ofOption (.text ·.code) r.severity), ("likelihood", .ofOption (.text ·.code) r.likelihood),
    ("risk_band", .ofOption (.text ·.code) r.band)]

def Value.toJson : Value → Json
  | .data j => j
  | .rating r => r.toJson

def Identifier.toJson (i : Identifier) : Json := .text i.text

namespace Entity

def parentField (t : EntityType) (e : Entity) : List (String × Json) :=
  t.parentKey.toList.map fun key => (key, .ofOption Identifier.toJson e.parent)

def toJson (t : EntityType) (e : Entity) : Json :=
  .object (("id", e.id.toJson) :: e.parentField t ++ ("order_index", .int e.order) ::
    e.attributes.map fun f => (f.1.name, f.2.toJson))

def parentRank (e : Entity) : Nat := (e.parent.map (·.value + 1)).getD 0

def viewLe (a b : Entity) : Bool :=
  a.parentRank < b.parentRank || (a.parentRank = b.parentRank && a.order ≤ b.order)

end Entity

namespace Document

def viewCollection (d : Document) (t : EntityType) : List Entity := (d.collection t).mergeSort Entity.viewLe

def collectionField (d : Document) (t : EntityType) : String × Json :=
  (t.plural, .list ((d.viewCollection t).map (·.toJson t)))

def view (d : Document) : Json :=
  .object ([("id", d.id.toJson), ("kind", .text d.kind.name), ("title", .text d.title), ("phase", .text d.phase)] ++
    EntityType.all.map d.collectionField ++
    [("created_at", .text d.createdAt.text), ("updated_at", .text d.updatedAt.text)])

end Document
end SafetyCase
