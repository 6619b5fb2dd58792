import SafetyCase.Proofs.Complaints
import SafetyCase.Proofs.Completion
import SafetyCase.Proofs.Gates
import SafetyCase.Proofs.Phased
/-! A batch always returns a result while its case is in the store and can be read. Whatever the commands hold, what is
kept of them can be tried: nothing that an edit of its intent and target needs is missing from it. Nor does it matter how
old the editor's copy of the case is. -/
namespace SafetyCase
open Intake (Told Checked)

theorem Intake.filledSome {read : Json → Checked α} {j : Json} {items : List α} (done : filledList read j = .ok items) :
    items ≠ [] := by
  unfold filledList at done
  split at done
  · contradiction
  · rename_i other
    rintro rfl
    exact other done

theorem Intake.requiredRead {key : Key} {fields : List (String × Json)} {read : Json → Checked α} {a : α}
    (done : required key fields read = .ok a) : ∃ j, read j = .ok a := by
  unfold required at done
  split at done
  · contradiction
  · rename_i used j _
    refine ⟨j, ?_⟩
    generalize read j = x at done
    cases x with
    | error issues => contradiction
    | ok b => exact done

structure Edit.Executable (k : Kind) (e : Edit) : Prop where
  tells : e.intent ≠ .clarify
  type : (e.target.entityType? k).isSome = true
  rates : e.target = .assessment → e.newRating?.isSome = true
  orders : e.intent = .reorder → ∃ first rest, e.payload = some (.order (first :: rest))

theorem Draft.orderFilled {k : Kind} {d : Draft} {e : Edit} (done : d.toEdit k = .ok e) (orders : e.intent = .reorder) :
    ∃ first rest, e.payload = some (.order (first :: rest)) := by
  have accepted := accepted done
  have read := accepted.read
  -- for an order the data is read without regard to the target
  rw [← accepted.intent, orders] at read
  obtain ⟨refs, given, payload⟩ := okOfMap (show (Payload.readOrder d.given).map _ = _ from read)
  obtain ⟨j, listed⟩ := Intake.requiredRead given
  obtain ⟨first, rest, rfl⟩ := List.exists_cons_of_ne_nil (Intake.filledSome listed)
  exact ⟨first, rest, payload.symm⟩

theorem Draft.madeExecutable {k : Kind} {e : Edit} (made : Made k e) : e.Executable k := by
  have fits := madeFits made
  obtain ⟨d, done, -, -⟩ := made
  have rates (target : e.target = .assessment) : e.newRating?.isSome = true := by
    obtain ⟨v, rated⟩ := Edit.fitRates fits target
    rw [rated]
    rfl
  refine ⟨?_, ?_, rates, orderFilled done⟩
  · cases fits with
    | rates _ _ intent => rcases intent with intent | intent <;> simp [intent]
    | unrates _ _ intent => simp [intent]
    | fills _ _ intent => rcases intent with intent | intent | intent <;> simp [intent]
    | deletes _ _ intent => simp [intent]
    | orders _ _ intent => simp [intent]
  · cases fits with
    | rates target => simp [target, Target.entityType?]
    | unrates target => simp [target, Target.entityType?]
    | fills _ type => simp [type]
    | deletes _ type => simp [type]
    | orders _ type => simp [type]

namespace Store

structure Ready (s : Store) (id : Identifier) : Prop where
  stored : ∃ d, s.find? id = some d
  reads : s.outage.reads = false
  phased : s.Phased

variable {s s' : Store} {held : Document} {id : Identifier}

theorem Ready.same (ready : s.Ready id) (cases : s'.cases = s.cases) (outage : s'.outage = s.outage) : s'.Ready id := by
  obtain ⟨d, found⟩ := ready.stored
  exact ⟨⟨d, (findSame cases id).trans found⟩, outage ▸ ready.reads, fun c stored => ready.phased c (cases ▸ stored)⟩

theorem editReady (ready : s.Ready held.id) (e : Edit) : (s.applyEdit held e).2.Ready held.id := by
  obtain ⟨d, found⟩ := ready.stored
  obtain ⟨d', still, _⟩ := (editTouches (applyEditStep s held e)).itself d found
  exact ⟨⟨d', still⟩, editOutage s held e ▸ ready.reads, editPhased s held e ready.phased⟩

theorem commandsReady (ready : s.Ready held.id) (cs : List Command) : (s.applyCommands held cs).2.Ready held.id := by
  have kept : (s.applyEdits held (cs.flatMap Command.leaves)).2.Ready held.id :=
    (editsKeep (P := fun s => s.Ready held.id) (fun _ e _ ready => editReady ready e) ready).2
  rwa [commandsAsEdits] at kept

end Store

namespace Desk

variable {k : Desk} {held : Document}

theorem refreshReturns (opened : k.session.document = some held) (ready : k.store.Ready held.id) :
    ∃ d k', k.refresh = (.ok d, k') := by
  obtain ⟨c, found⟩ := ready.stored
  have stored := Store.getStored ready.reads found
  obtain ⟨gate, opens⟩ := PhaseGate.opens (Store.readPhased ready.phased stored)
  have form := refreshed k
  generalize k.refresh = r at form
  cases form with
  | closed shut => simp [opened] at shut
  | unread here failed =>
    cases opened.symm.trans here
    rw [stored] at failed
    contradiction
  | ungated here read failed =>
    -- the one way in which a case that can be read ends the batch: its phase is not one of its kind
    cases opened.symm.trans here
    cases stored.symm.trans read
    rw [opens] at failed
    contradiction
  | loaded => exact ⟨_, _, rfl⟩

theorem afterRefreshReturns {next : Document → Desk → Except Failure α × Desk} (opened : k.session.document = some held)
    (ready : k.store.Ready held.id) (after : ∀ d k, ∃ a k', next d k = (.ok a, k')) :
    ∃ a k', k.afterRefresh next = (.ok a, k') := by
  obtain ⟨d, k', read⟩ := refreshReturns opened ready
  rw [afterRefresh, read]
  exact after d k'

theorem batchReturns (opened : k.session.document = some held) (ready : k.store.Ready held.id) (b : Envelope) :
    ∃ r k', k.applyBatch b = (.ok r, k') := by
  have form := batch k b
  generalize k.applyBatch b = r at form
  cases form with
  | closed shut => simp [opened] at shut
  | idle => exact ⟨_, _, rfl⟩
  | applied here tells captures =>
    cases opened.symm.trans here
    have outage : (k.capture held b.summary).store.outage = k.store.outage := by
      unfold capture
      dsimp only
      split <;> rfl
    have captured := ready.same (casesCapture k held b.summary) outage
    obtain ⟨os, applied⟩ : ∃ os, ((k.capture held b.summary).store.applyCommands held (k.check held b).accepted).1 =
        .ok os := Store.commandsReturn captured.stored (batchFits tells)
    have after := Store.commandsReady captured (k.check held b).accepted
    unfold applyAccepted
    dsimp only
    generalize (k.capture held b.summary).store.applyCommands held (k.check held b).accepted = r at applied after
    obtain ⟨abort | os', s⟩ := r
    · contradiction
    · exact afterRefreshReturns (by simpa using opened) after fun d k' => ⟨_, _, rfl⟩

end Desk

namespace Office

theorem batchSettles {o : Office} (reached : Reached o) {session : Nat} {held : Document}
    (opened : (o.sessions session).document = some held) (stored : ∃ d, o.store.find? held.id = some d)
    (reads : o.store.outage.reads = false) (slot : Nat) (b : Envelope) :
    (∃ r k', (o.desk session slot).applyBatch b = (.ok r, k')) ∧
      (Desk.asksBack b ((o.desk session slot).check held b) = false →
        ∀ e ∈ (o.desk session slot).edits held b, e.Executable held.kind) ∧
      ∀ raw, Told (Draft.read raw) ∧
        ∀ d, Draft.read raw = .ok d → Told (Payload.read held.kind d.intent d.target d.given) := by
  have phased := (reachedPhased reached).stored
  refine ⟨Desk.batchReturns opened ⟨stored, reads, phased⟩ b, fun tells e listed => ?_, fun raw => ?_⟩
  · exact Draft.madeExecutable (batchMade tells e listed)
  · exact ⟨toldDraft raw, fun d _ => toldPayload held.kind d.intent d.target d.given⟩

theorem reachedSteps {o : Office} (reached : Reached o) (events : List Event) : Reached (events.foldl step o) := by
  induction events generalizing o with
  | nil => exact reached
  | cons event rest ih => exact ih (.step reached event)

def deletion : Write := .delete (.numbered 1) .step (.numbered 2) .cascade

def behind : Office :=
  let o := (staleEditor.take 4).foldl step (fresh ⟨0⟩ fun _ => none)
  { o with store := (o.store.write deletion).2 }

def oddBatch : Envelope :=
  { commands := [.null, .list [.int 3], worded "ADD" "HAZARD" [("stepIndex", .int 0)] [("label", .text "Crushing")],
      worded "REORDER" "STEP" [("stepId", .bool true)] [("orderedIds", .list [])],
      worded "ADD" "MULTIPLE" [] [("commands", .list [worded "DELETE" "STEP" [("stepIndex", .int 0)] [],
        worded "ADD" "MULTIPLE" [] [("commands", .list [.object []])]])]] }

theorem batchSettlesBehind : ∃ r k', (behind.desk 1 1).applyBatch oddBatch = (.ok r, k') ∧
    r.rejections.map (·.index) = [0, 1, 3] ∧ r.outcomes.map (·.succeeded) = [false, false] := by
  have reached : Reached behind := .write (reachedSteps (.fresh ⟨0⟩ fun _ => none) (staleEditor.take 4)) deletion trivial
  have own : (behind.sessions 1).document.map (·.id) = some (.numbered 1) := by cbv
  have there : (behind.store.find? (.numbered 1)).isSome = true := by cbv
  have answer : ((behind.desk 1 1).applyBatch oddBatch).1.toOption.map (fun r =>
      (r.rejections.map (·.index), r.outcomes.map (·.succeeded))) = some ([0, 1, 3], [false, false]) := by cbv
  obtain ⟨held, opened, named⟩ := Option.map_eq_some_iff.mp own
  have stored := Option.isSome_iff_exists.mp (named ▸ there)
  obtain ⟨r, k', returned⟩ := (batchSettles reached opened stored (by cbv) 1 oddBatch).1
  rw [returned] at answer
  obtain ⟨rejections, outcomes⟩ := Prod.mk.inj (Option.some.inj answer)
  exact ⟨r, k', returned, rejections, outcomes⟩

end Office
end SafetyCase
