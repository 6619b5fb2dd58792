import SafetyCase.Document.Basic
import SafetyCase.Tree.Fault
/-! Partial updates. Fields are set one after the other; the first field that may not be updated ends the
update, and what was set before it stays set. A rating is merged into the one it replaces. -/
namespace SafetyCase

namespace Entity

def assign (e : Entity) (a : Attribute) : Value → Entity
  | .data j => e.set a (.data j)
  | .rating r => e.set a (.rating (Rating.merge (e.rating? a) r.severity r.likelihood))

def patch (t : EntityType) : List (String × Value) → Entity → Entity × Except TreeFault Unit
  | [], e => (e, .ok ())
  | (name, v) :: rest, e =>
    match t.attribute? name with
    | none => (e, .error (.notUpdatable name t))
    | some a => patch t rest (e.assign a v)

@[simp] theorem idAssign (e : Entity) (a : Attribute) (v : Value) : (e.assign a v).id = e.id := by
  cases v <;> rfl

@[simp] theorem parentAssign (e : Entity) (a : Attribute) (v : Value) : (e.assign a v).parent = e.parent := by
  cases v <;> rfl

@[simp] theorem orderAssign (e : Entity) (a : Attribute) (v : Value) : (e.assign a v).order = e.order := by
  cases v <;> rfl

theorem idPatch (t : EntityType) (changes : List (String × Value)) (e : Entity) :
    (patch t changes e).1.id = e.id := by
  induction changes generalizing e with
  | nil => rfl
  | cons c rest ih =>
    obtain ⟨name, v⟩ := c
    simp only [patch]
    split
    · rfl
    · rw [ih, idAssign]

end Entity

namespace Document

def modifyFirst (p : α → Bool) (f : α → α) : List α → List α
  | [] => []
  | a :: rest => if p a then f a :: rest else a :: modifyFirst p f rest

def modifyEntity (d : Document) (t : EntityType) (id : Identifier) (f : Entity → Entity) : Document :=
  d.setCollection t (modifyFirst (·.id = id) f (d.collection t))

end Document
end SafetyCase
