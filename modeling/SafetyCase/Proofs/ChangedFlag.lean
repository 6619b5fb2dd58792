import Mathlib
import SafetyCase.Proofs.Settlement
/-! What the flag of a batch says about the store. The flag counts commands that went through as a whole, while the
store is written edit by edit. A compound command of which only some parts were applied counts as failed, so
that its batch reports no change although the case was saved; without such a part the flag can be trusted. -/
namespace SafetyCase

theorem failedTried {o : Outcome} (failed : o.succeeded = false) (parts : ∀ p ∈ o.parts, p.fault? ≠ none) :
    ∀ x ∈ o.tried, x.fault? ≠ none := by
  obtain ⟨command, settled, tried⟩ := o
  intro x listed
  unfold Outcome.tried at listed
  split at listed
  · exact parts x listed
  · split at listed
    · rename_i same
      dsimp only at same
      simp [Outcome.succeeded, same] at failed
    · rw [List.mem_singleton.mp listed]
      simp [EditOutcome.fault?]
    · contradiction

namespace Store

variable {s s' : Store} {held : Document}

theorem partsTried {c : Command} {o : Outcome} (done : (s.applyCommand held c).1 = .ok o) :
    ∀ p ∈ o.parts, p ∈ o.tried := by
  unfold applyCommand at done
  split at done
  · rename_i compound
    split at done
    · contradiction
    · rename_i parts _ _
      cases done
      have form : (compoundOutcome c parts).command = c ∧ (compoundOutcome c parts).parts = parts := by
        unfold compoundOutcome
        dsimp only
        split <;> exact ⟨rfl, rfl⟩
      intro p listed
      rwa [Outcome.tried, form.1, if_pos compound]
  · split at done
    · contradiction
    · rename_i o' _ _
      cases done
      have none : (singleOutcome c o').parts = [] := by
        unfold singleOutcome
        split <;> rfl
      simp [none]

theorem allPartsTried {cs : List Command} {os : List Outcome} (done : (s.applyCommands held cs).1 = .ok os) :
    ∀ o ∈ os, ∀ p ∈ o.parts, p ∈ os.flatMap Outcome.tried := by
  have each : ∀ o ∈ os, ∀ p ∈ o.parts, p ∈ o.tried := by
    induction cs generalizing s os with
    | nil =>
      cases done
      simp
    | cons c rest ih =>
      obtain ⟨o, os', first, tail, rfl⟩ := commandsCons done
      intro x listed
      rcases List.mem_cons.mp listed with rfl | later
      · exact partsTried first
      · exact ih tail x later
  exact fun o listed p part => List.mem_flatMap.mpr ⟨o, listed, each o listed p part⟩

end Store

namespace Desk

variable {k k' : Desk} {b : Envelope} {d : Document} {r : BatchResult}

theorem appliedBatch {check : BatchCheck} (returned : k.applyAccepted d b.summary check = (.ok r, k')) :
    ∃ store, (k.capture d b.summary).store.applyCommands d check.accepted = (.ok r.outcomes, store) ∧
      k'.store.cases = store.cases := by
  unfold applyAccepted at returned
  dsimp only at returned
  generalize (k.capture d b.summary).store.applyCommands d check.accepted = applied at returned ⊢
  obtain ⟨abort | outcomes, store⟩ := applied
  · cases returned
  · have same := refreshCases { k.capture d b.summary with store }
    unfold afterRefresh at returned
    dsimp only at returned same
    generalize Desk.refresh _ = fresh at returned same
    obtain ⟨failure | c, k₁⟩ := fresh
    · cases returned
    · cases returned
      exact ⟨store, rfl, same⟩

theorem changedFlag (opened : k.session.document = some d) (returned : k.applyBatch b = (.ok r, k'))
    (unchanged : r.changed = false) :
    ((∀ o ∈ r.outcomes, ∀ p ∈ o.parts, p.fault? ≠ none) → k'.store.cases = k.store.cases) ∧
      ∀ o ∈ r.outcomes, ∀ p ∈ o.parts, p.fault? = none → k'.store.Saved d.id k.store.now := by
  have form := batch k b
  rw [returned] at form
  generalize same : ((.ok r, k') : Except Failure BatchResult × Desk) = answer at form
  cases form with
  | closed => cases same
  | idle n _ empty =>
    cases same
    exact ⟨fun _ => rfl, by simp [empty]⟩
  | applied here tells =>
    cases opened.symm.trans here
    obtain ⟨store, applied, cases⟩ := appliedBatch same.symm
    have run := Store.commandsAsEdits (k.capture d b.summary).store d (k.check d b).accepted
    rw [applied] at run
    have settled := Store.editsSettle (batchFits tells) run
    have failed : ∀ o ∈ r.outcomes, o.succeeded = false := by
      have none : r.applied = 0 := by simpa [BatchResult.changed] using unchanged
      intro o listed
      simpa using List.countP_eq_zero.mp none o listed
    refine ⟨fun parts => ?_, fun o listed p part applied' => ?_⟩
    · rw [cases, ← casesCapture k d b.summary]
      refine settled.failed fun x tried => ?_
      obtain ⟨o, listed, tried⟩ := List.mem_flatMap.mp tried
      exact failedTried (failed o listed) (parts o listed) x tried
    · have tried := Store.allPartsTried (s := (k.capture d b.summary).store) (by rw [applied]) o listed p part
      obtain ⟨c, found, moment⟩ := settled.applied p tried applied'
      exact ⟨c, by rwa [Store.find?, cases], by rw [moment, nowCapture]⟩

def failing : Envelope :=
  let deletion := worded "DELETE" "STEP" [("stepIndex", .int 0)] []
  { commands := [deletion, worded "ADD" "MULTIPLE" [] [("commands", .list [deletion])]] }

theorem changedFlagFailing : ∃ r k', blank.applyBatch failing = (.ok r, k') ∧ r.changed = false ∧
    r.outcomes.map (·.parts.length) = [0, 1] ∧ k'.store.cases = blank.store.cases := by
  have answer : (blank.applyBatch failing).1.toOption.map (fun r =>
      (r.changed, r.outcomes.map (·.parts.length), r.outcomes.all fun o => o.parts.all (·.fault?.isSome))) =
      some (false, [0, 1], true) := by cbv
  obtain ⟨⟨_ | r, k'⟩, returned⟩ : ∃ a, blank.applyBatch failing = a := ⟨_, rfl⟩
  · rw [returned] at answer
    contradiction
  · rw [returned] at answer
    obtain ⟨unchanged, lengths, faults⟩ : r.changed = false ∧ r.outcomes.map (·.parts.length) = [0, 1] ∧
        (r.outcomes.all fun o => o.parts.all (·.fault?.isSome)) = true := by simpa using Option.some.inj answer
    refine ⟨r, k', returned, unchanged, lengths, (changedFlag rfl returned unchanged).1 fun o listed p part => ?_⟩
    exact Option.isSome_iff_ne_none.mp (List.all_eq_true.mp (List.all_eq_true.mp faults o listed) p part)

theorem changedFlagMisses : ∃ r k', blank.applyBatch partly = (.ok r, k') ∧ r.changed = false ∧
    blank.session.document = blank.store.find? (.numbered 1) ∧
    (k'.store.find? (.numbered 1)).map (·.steps) ≠ (blank.store.find? (.numbered 1)).map (·.steps) := by
  have flag : (blank.applyBatch partly).1.toOption.map (·.changed) = some false := by cbv
  have after : ((blank.applyBatch partly).2.store.find? (.numbered 1)).map (·.steps.length) = some 1 := by cbv
  obtain ⟨⟨_ | r, k'⟩, returned⟩ : ∃ a, blank.applyBatch partly = a := ⟨_, rfl⟩
  · rw [returned] at flag
    contradiction
  · rw [returned] at flag after
    refine ⟨r, k', returned, Option.some.inj flag, rfl, fun same => ?_⟩
    have lengths := congrArg (Option.map List.length) same
    rw [Option.map_map, show List.length ∘ (·.steps) = (fun d : Document => d.steps.length) from rfl, after] at lengths
    contradiction

end Desk
end SafetyCase
