import SafetyCase.Tree.Siblings
import SafetyCase.Tree.Fault
/-! Giving a sibling group a new order. The order must name every member once and nothing else. -/
namespace SafetyCase

namespace Document

/-- The position of the last member with an identifier. -/
def positionOf (group : List (Entity × Nat)) (id : Identifier) : Option Nat :=
  (group.reverse.find? (·.1.id = id)).map (·.2)

def reorder (d : Document) (t : EntityType) (parent : Option Identifier) (ids : List Identifier) :
    Except TreeFault Document :=
  let es := d.collection t
  let group := Entity.positions t parent es
  let members := group.map (·.1.id)
  if ¬ ids.Nodup then .error .repeatedIds
  else if ids.all members.contains && members.all ids.contains then
    .ok (d.setCollection t (Entity.renumber (ids.filterMap (positionOf group)) es))
  else .error (.notTheGroup t)

end Document
end SafetyCase
