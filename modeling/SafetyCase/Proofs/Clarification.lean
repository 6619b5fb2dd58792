import Mathlib
import SafetyCase.Proofs.Operations
/-! Questions in a batch. A command that asks back turns its whole batch into a question, which changes nothing but the
journal, wherever the command stands. The limit on a batch comes first: once it is used up, nothing further is
looked at, and a question that stands there is dropped while the commands before it are carried out. -/
namespace SafetyCase

def Asks (k : Kind) (raw : Json) : Prop := ∃ c, validate k raw = .ok c ∧ c.isClarification = true

def AsksWithin (k : Kind) (limit : Option Int) (raws : List Json) : Prop :=
  ∃ before raw after, raws = before ++ raw :: after ∧ Asks k raw ∧
    BatchCheck.isFull limit (validateBatch k limit before).accepted.length = false

theorem askedAmong {k : Kind} {limit : Option Int} {raws : List Json} :
    (validateBatch k limit raws).accepted.any (·.isClarification) = true ↔ AsksWithin k limit raws := by
  rw [List.any_eq_true]
  constructor
  · rintro ⟨c, kept, asks⟩
    obtain ⟨before, raw, after, split, accepted, room⟩ := scannedAt.mp kept
    exact ⟨before, raw, after, split, ⟨c, accepted, asks⟩, by rwa [Nat.zero_add] at room⟩
  · rintro ⟨before, raw, after, split, ⟨c, accepted, asks⟩, room⟩
    exact ⟨c, scannedAt.mpr ⟨before, raw, after, split, accepted, by rwa [Nat.zero_add]⟩, asks⟩

namespace Desk

variable {k k' : Desk} {d : Document} {b : Envelope} {r : BatchResult}

theorem asksBackWhen : asksBack b (k.check d b) = true ↔
    b.needsClarification = true ∨ AsksWithin d.kind k.session.limit b.commands := by
  rw [asksBack, Bool.or_eq_true]
  exact or_congr_right askedAmong

theorem appliedTells {check : BatchCheck} (returned : k.applyAccepted d b.summary check = (.ok r, k')) :
    r.needsClarification = false := by
  unfold applyAccepted at returned
  dsimp only at returned
  split at returned
  · cases returned
  · unfold afterRefresh at returned
    split at returned
    · cases returned
    · cases returned
      rfl

structure AskedOnly (k : Desk) (r : BatchResult) (k' : Desk) : Prop where
  asks : r.needsClarification = true
  unchanged : r.changed = false
  cases : k'.store.cases = k.store.cases
  session : k'.session = k.session
  slot : k'.slot = k.slot

theorem clarificationOnly (opened : k.session.document = some d) :
    b.needsClarification = true ∨ AsksWithin d.kind k.session.limit b.commands ↔
      ∃ r k', k.applyBatch b = (.ok r, k') ∧ k.AskedOnly r k' := by
  rw [← asksBackWhen, check]
  constructor
  · intro asks
    have returned : ∃ n r, k.applyBatch b = (.ok r, k.note n) ∧ r.needsClarification = true ∧ r.outcomes = [] := by
      simp only [applyBatch, opened, asks, if_true]
      exact ⟨_, _, rfl, rfl, rfl⟩
    obtain ⟨n, r, returned, asking, none⟩ := returned
    exact ⟨r, k.note n, returned, asking, by simp [BatchResult.changed, BatchResult.applied, none], rfl, rfl, rfl⟩
  · rintro ⟨r, k', returned, only⟩
    by_contra tells
    simp only [applyBatch, opened, tells, if_false] at returned
    have told : r.needsClarification = false := by
      split at returned
      · cases returned
        rfl
      · exact appliedTells returned
    exact Bool.noConfusion (only.asks.symm.trans told)

def limited : Desk := { blank with session := { blank.session with limit := some 1 } }

def question : Json := worded "CLARIFY" "STEP" [] [("clarificationPrompt", .text "Which dock?")]

def addition : Json := worded "ADD" "STEP" [] [("activity", .text "Load")]

theorem clarificationEarly : AsksWithin .riskAssessment (some 1) [question, addition] ∧
    ∃ r k', limited.applyBatch { commands := [question, addition] } = (.ok r, k') ∧ limited.AskedOnly r k' := by
  have asks : AsksWithin .riskAssessment (some 1) [question, addition] :=
    ⟨[], question, [addition], rfl, ⟨_, rfl, by cbv⟩, by cbv⟩
  exact ⟨asks, (clarificationOnly (k := limited) (d := blankCase) rfl).mp (.inr asks)⟩

theorem clarificationLate : Asks .riskAssessment question ∧ ∃ r k',
    limited.applyBatch { commands := [addition, question] } = (.ok r, k') ∧ r.needsClarification = false ∧
    r.changed = true ∧ (k'.store.find? (.numbered 1)).map (·.steps.length) = some 1 := by
  refine ⟨⟨_, rfl, by cbv⟩, ?_⟩
  have answer : (limited.applyBatch { commands := [addition, question] }).1.toOption.map
      (fun r => (r.needsClarification, r.changed)) = some (false, true) := by cbv
  have stored : ((limited.applyBatch { commands := [addition, question] }).2.store.find? (.numbered 1)).map
      (·.steps.length) = some 1 := by cbv
  obtain ⟨r, k', same, flags⟩ := returnsOfMap answer
  obtain ⟨told, changed⟩ := Prod.mk.inj flags
  rw [same] at stored
  exact ⟨r, k', same, told, changed, stored⟩

end Desk
end SafetyCase
