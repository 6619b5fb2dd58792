import SafetyCase.Tree.Siblings
import SafetyCase.Tree.Fault
/-! Removing an entity with all that hangs below it. Children go before their parent, type by type and in
the order of their group, and each group left behind is numbered anew. A restricted removal is
refused while there are children; a refused removal changes nothing. -/
namespace SafetyCase

namespace Document

def removeOne (d : Document) (t : EntityType) (e : Entity) : Document :=
  d.setCollection t (Entity.renumberGroup t e.parent ((d.collection t).eraseP (·.id = e.id)))

def removeEach (remove : Document → Identifier → List Entity × Document) :
    List Identifier → Document → List Entity × Document
  | [], d => ([], d)
  | i :: rest, d =>
    let first := remove d i
    let others := removeEach remove rest first.2
    (first.1 ++ others.1, others.2)

def removeChildren (remove : EntityType → Document → Identifier → List Entity × Document)
    (parent : Identifier) : List EntityType → Document → List Entity × Document
  | [], d => ([], d)
  | c :: rest, d =>
    let first := removeEach (remove c) ((d.siblings c (some parent)).map (·.id)) d
    let others := removeChildren remove parent rest first.2
    (first.1 ++ others.1, others.2)

def removeTree (k : Kind) : Nat → EntityType → Document → Identifier → List Entity × Document
  | 0, t, d, id =>
    match d.find? t id with
    | none => ([], d)
    | some e => ([e], d.removeOne t e)
  | depth + 1, t, d, id =>
    match d.find? t id with
    | none => ([], d)
    | some e =>
      let below := removeChildren (removeTree k depth) id (k.children t) d
      (below.1 ++ [e], below.2.removeOne t e)

def childType? (d : Document) (k : Kind) (t : EntityType) (id : Identifier) : Option EntityType :=
  (k.children t).find? fun c => !(d.siblings c (some id)).isEmpty

def remove (d : Document) (k : Kind) (t : EntityType) (id : Identifier) (policy : DeletePolicy) :
    Except TreeFault (List Entity × Document) :=
  if (d.find? t id).isNone then .error (.missing t id)
  else match policy, d.childType? k t id with
    | .restrict, some c => .error (.hasChildren t id c)
    | _, _ => .ok (removeTree k (k.height t) t d id)

end Document
end SafetyCase
