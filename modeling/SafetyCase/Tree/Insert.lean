import SafetyCase.Tree.Siblings
import SafetyCase.Tree.Fault
/-! New entities: building one from named values, and inserting one into its group at a position. A
position before the front counts as the front; one past the end, or none, as the end. -/
namespace SafetyCase

def textLe (a b : String) : Bool := !decide (b < a)

namespace Entity

/-- An entity with the given values over those of a new one. Values for the identifier, the place and
the parent have no effect. -/
def build (t : EntityType) (id : Identifier) (parent : Option Identifier) (data : List (String × Value)) :
    Except TreeFault Entity :=
  let unknown := (data.map (·.1)).filter fun name => !t.fieldNames.contains name
  if unknown ≠ [] then .error (.unknownFields t (unknown.mergeSort textLe))
  else if !t.isTop && parent.isNone then .error (.parentRequired t)
  else .ok
    { id
      parent := if t.isTop then none else parent
      order := 0
      attributes := t.attributes.map fun f => (f.1, (data.lookup f.1.name).getD f.2) }

theorem idBuild {t : EntityType} {id : Identifier} {parent : Option Identifier} {data : List (String × Value)}
    {e : Entity} (h : build t id parent data = .ok e) : e.id = id := by
  simp only [build] at h
  split at h
  · contradiction
  · split at h
    · contradiction
    · cases h
      rfl

end Entity

namespace Document

def insertionPoint (position : Option Int) (size : Nat) : Nat :=
  match position with
  | none => size
  | some p => min p.toNat size

def insert (d : Document) (t : EntityType) (e : Entity) (position : Option Int) : Document :=
  let es := d.collection t
  let group := (Entity.positions t e.parent es).map (·.2)
  let order := group.insertIdx (insertionPoint position group.length) es.length
  d.setCollection t (Entity.renumber order (es ++ [e]))

theorem insertionPointBound (position : Option Int) (size : Nat) : insertionPoint position size ≤ size := by
  cases position with
  | none => exact Nat.le_refl size
  | some p => exact Nat.min_le_right p.toNat size

end Document
end SafetyCase
