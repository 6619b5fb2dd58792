import Mathlib
import SafetyCase.Proofs.Coherence
import SafetyCase.Proofs.Openings
/-! What is reached by requests during which parts of the store go out of order, or come back: the sessions and the slot
are of stored cases, and an interrupted request does what a plain one does at a service with the same cases. -/
namespace SafetyCase
open Relation (ReflTransGen)

namespace Desk

variable {k k' : Desk} {held : Document}

theorem releaseOwn {id : Identifier} (own : ∀ kept, k.slot = some kept → kept.document.id = id) : k.release id = k := by
  unfold release
  split
  · rfl
  · rename_i kept taken
    rw [if_pos (own kept taken)]

end Desk

namespace Registry

variable {r r' : Registry} {s s' : Store} {id : Identifier} {k : Desk}

theorem fileAgain (first second : Session) (entries : List (Identifier × Session)) :
    file id second (file id first entries) = file id second entries := by
  induction entries with
  | nil => simp [file]
  | cons entry rest ih =>
    simp only [file]
    split
    · simp [file]
    · rename_i other
      simp [file, other, ih]

theorem reachedDesk (reached : r.reach s id = (.ok k, r', s')) :
    k.slot = r.slot.filter (·.document.id = id) ∧ k.store.cases = s.cases ∧ k.store.outage = s.outage := by
  have outage (k : Desk) : (k.release id).store.outage = k.store.outage := by
    unfold Desk.release
    split
    · rfl
    · split <;> rfl
  unfold reach at reached
  split at reached
  · rename_i session _
    cases reached
    exact ⟨Desk.slotRelease _ id, Desk.casesRelease _ id, outage _⟩
  · split at reached
    · cases reached
    · rename_i d k' opened
      have form := Desk.opening (r.desk s { limit := r.limit }) id
      rw [opened] at form
      cases reached
      cases form
      exact ⟨Desk.slotRelease _ id, Desk.casesRelease _ id, outage _⟩

theorem reachAgain (reached : r.reach s id = (.ok k, r', s')) (t : Store) :
    (r'.settle id k).reach t id = (.ok { k with store := t }, r'.settle id k, t) := by
  have filed : (r'.settle id k).session? id = some k.session := lookupFile id k.session r'.sessions
  have own : ∀ kept, k.slot = some kept → kept.document.id = id := by
    intro kept taken
    rw [(reachedDesk reached).1] at taken
    simpa using (Option.filter_eq_some_iff.mp taken).2
  have still : ((r'.settle id k).desk t k.session).release id = { k with store := t } := Desk.releaseOwn own
  rw [reach, filed]
  dsimp only
  rw [still]
  rfl

end Registry

namespace Web

namespace Service

inductive Turn (v : Service) : Service → Prop where
  | request (r : Request) (amid : Outage) : Turn v (v.answerAmid r amid).2
  | clock (now : Moment) : Turn v { v with store := { v.store with now } }
  | outage (parts : Outage) : Turn v { v with store := { v.store with outage := parts } }

def Reached (v : Service) : Prop := ∃ settings now, ReflTransGen Turn (start settings now).startup v

variable {v : Service} {r : Request} {id : Identifier} {kinds : Identifier → Kind} {k : Desk}

theorem callRead {call : Call} (read : r.call? = some call) : ∃ route endpoint,
    Route.ofPath? (pathOf r.target) = some route ∧ route.endpoint? r.method = some endpoint ∧
      endpoint.call (route.id?.getD "") r.body = .ok call := by
  simp only [Request.call?, bind, Option.bind_eq_some_iff] at read
  obtain ⟨route, path, endpoint, found, checked⟩ := read
  refine ⟨route, endpoint, path, found, ?_⟩
  generalize endpoint.call (route.id?.getD "") r.body = answer at checked
  cases answer with
  | error issues => cases checked
  | ok called => rw [Option.some.inj checked]

theorem answerCall {call : Call} (read : r.call? = some call) : v.answer r = v.serve call := by
  obtain ⟨route, endpoint, path, found, checked⟩ := callRead read
  simp [answer, path, found, checked]

inductive Answers (k : Desk) : Option Desk.Op → Except Failure Json × Desk → Prop where
  | looked (answer : Except Failure Json) : Answers k none (answer, k)
  | worked {α : Type} {op : Desk.Op} {answer : Except Failure α} (heard : α → Signal) (write : α → Json)
      (hears : k.signal op = .ofAnswer heard answer) : Answers k (some op) (answer.map write, k.perform op)
  | ordered (target : Target) (ids : List String) (location : Location) :
      Answers k (some (.reorder target ids location)) (reorderAndShow k target ids location)

theorem serveAnswers {call : Call} {op : Option Desk.Op} (visits : call.visit? = some (id, op)) :
    ∃ run, (∀ v : Service, v.serve call = v.onCase id run) ∧ ∀ k, Answers k op (run k) := by
  cases call <;> cases visits
  case applyBatch b => exact ⟨fun k => writing _ (k.applyBatch b), fun _ => rfl, fun _ => .worked .ofBatch _ rfl⟩
  case applyCommand raw =>
    exact ⟨fun k => writing _ (k.applyBatch { commands := [raw] }), fun _ => rfl, fun _ => .worked .ofBatch _ rfl⟩
  case undo => exact ⟨fun k => writing _ k.undo, fun _ => rfl, fun _ => .worked (fun _ => .reread) _ rfl⟩
  case undoStatus => exact ⟨fun k => (k.undoStatus.map (·.toJson), k), fun _ => rfl, fun _ => .looked _⟩
  case reorder target ids location => exact ⟨_, fun _ => rfl, fun _ => .ordered target ids location⟩
  case phases =>
    exact ⟨fun k => (k.phaseStates.map fun states => .list (states.map (·.toJson)), k), fun _ => rfl,
      fun _ => .looked _⟩
  case advance => exact ⟨fun k => writing _ k.advance, fun _ => rfl, fun _ => .worked .ofMove _ rfl⟩
  case jump phase => exact ⟨fun k => writing _ (k.jump phase), fun _ => rfl, fun _ => .worked .ofMove _ rfl⟩

theorem onCaseAgain (v : Service) (id : Identifier) (run : Desk → Except Failure Json × Desk) :
    (v.interrupt id v.store.outage).onCase id run = v.onCase id run := by
  unfold interrupt
  split
  · rfl
  · rename_i k registry s reached
    have outage := (Registry.reachedDesk reached).2.2
    have same : ({ k.store with outage := v.store.outage } : Store) = k.store := by rw [← outage]
    unfold onCase
    dsimp only
    rw [same, Registry.reachAgain reached k.store, reached]
    simp [Registry.settle, Registry.fileAgain]

theorem uninterrupted (v : Service) (r : Request) : v.answerAmid r v.store.outage = v.answer r := by
  unfold answerAmid Request.visited?
  cases read : r.call? with
  | none => rfl
  | some call =>
    rw [Option.bind_some]
    cases visits : call.visit? with
    | none => rfl
    | some visit =>
      obtain ⟨id, op⟩ := visit
      obtain ⟨run, same, -⟩ := serveAnswers visits
      dsimp only [Option.map_some]
      rw [answerCall read, answerCall read, same, same, onCaseAgain]

end Service
end Web
end SafetyCase
