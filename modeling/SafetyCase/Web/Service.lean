import SafetyCase.Editor.Cases
import SafetyCase.Editor.Registry
import SafetyCase.Settings
import SafetyCase.Web.Request
import SafetyCase.Web.Response
/-! The service: one store, one registry of sessions, and the answer to each request. -/
namespace SafetyCase.Web

structure Service where
  settings : Settings := {}
  store : Store
  registry : Registry

namespace Service

def start (settings : Settings) (now : Moment) : Service :=
  { settings, store := { now }, registry := { limit := settings.maxBatchCommands } }

def startup (v : Service) : Service :=
  if v.settings.seedDemoCase then { v with store := v.store.seed } else v

def onCase (v : Service) (id : Identifier) (op : Desk → Except Failure Json × Desk) : Response × Service :=
  match v.registry.reach v.store id with
  | (.error failure, registry, store) => (.ofFailure failure, { v with registry, store })
  | (.ok k, registry, _) =>
    let (answer, k) := op k
    (.ofResult 200 answer, { v with store := k.store, registry := registry.settle id k })

def writing (write : α → Json) (r : Except Failure α × Desk) : Except Failure Json × Desk := (r.1.map write, r.2)

def reorderAndShow (k : Desk) (target : Target) (ids : List String) (location : Location) :
    Except Failure Json × Desk :=
  match k.reorder target ids location with
  | (.error failure, k) => (.error failure, k)
  | (.ok o, k) =>
    match o.settled, k.session.document with
    | .error fault, _ => (.error (.reorderFailed fault), k)
    | .ok _, some d => (.ok d.view, k)
    | .ok _, none => (.error .noCaseOpen, k)

def serve (v : Service) : Call → Response × Service
  | .health => (⟨200, .object [("status", .text "ok"), ("environment", .text v.settings.environment)]⟩, v)
  | .createCase kind title =>
    match v.store.startCase kind title with
    | (.error failure, store) => (.ofFailure failure, { v with store })
    | (.ok d, store) => (.data 201 d.view, { v with store })
  | .listCases => (.data 200 (.list (v.store.list.map (·.view))), v)
  | .getCase id =>
    match v.store.get id with
    | .error fault => (.ofFailure (.read fault), v)
    | .ok d => (.data 200 d.view, v)
  | .applyBatch id envelope => v.onCase id fun k => writing (·.toJson) (k.applyBatch envelope)
  | .applyCommand id raw => v.onCase id fun k => writing (·.toJson) (k.applyBatch { commands := [raw] })
  | .undo id => v.onCase id fun k => writing (·.view) k.undo
  | .undoStatus id => v.onCase id fun k => (k.undoStatus.map (·.toJson), k)
  | .reorder id target ids location => v.onCase id fun k => reorderAndShow k target ids location
  | .phases id => v.onCase id fun k => (k.phaseStates.map fun states => .list (states.map (·.toJson)), k)
  | .advance id => v.onCase id fun k => writing (·.toJson) k.advance
  | .jump id phase => v.onCase id fun k => writing (·.toJson) (k.jump phase)

def answer (v : Service) (r : Request) : Response × Service :=
  let path := pathOf r.target
  match Route.ofPath? path with
  | none => (if Route.redirects path then .redirect else .notFound, v)
  | some route =>
    match route.endpoint? r.method with
    | none => (.wrongMethod, v)
    | some endpoint =>
      match endpoint.call (route.id?.getD "") r.body with
      | .error issues => (.invalid issues, v)
      | .ok call => v.serve call

end Service
end SafetyCase.Web
