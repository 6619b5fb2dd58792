import SafetyCase.Proofs.ChangedFlag
import SafetyCase.Proofs.Envelopes
/-! The accounts of a batch. Every position is either accepted or named by exactly one rejection, and both keep the order of
the batch. A limit cuts the accepted commands off and changes nothing before the cut. Of a batch that is carried
out, every position is counted once: as applied, as failed, or as rejected. -/
namespace SafetyCase
namespace BatchCheck

variable {k : Kind} {limit : Option Int}

/-- The items that no rejection names, each with its position; the first stands at `index`. -/
def passed (check : BatchCheck) (index : Nat) (raws : List Json) : List (Json × Nat) :=
  (raws.zipIdx index).filter fun item => !check.rejected.any (·.index = item.2)

theorem passedFrom {check : BatchCheck} {index : Nat} {raws : List Json} :
    ∀ item ∈ check.passed index raws, index ≤ item.2 :=
  fun _ listed => List.le_snd_of_mem_zipIdx (List.mem_of_mem_filter listed)

theorem passedRejection (others : BatchCheck) (index : Nat) (reason : RejectionReason) (raw : Json) (rest : List Json) :
    passed { others with rejected := ⟨index, reason⟩ :: others.rejected } index (raw :: rest) =
      others.passed (index + 1) rest := by
  simp only [passed, List.zipIdx_cons, List.any_cons, List.filter_cons, decide_true, Bool.true_or, Bool.not_true,
    Bool.false_eq_true, if_false]
  refine List.filter_congr fun item listed => ?_
  have behind := List.le_snd_of_mem_zipIdx listed
  have apart : index ≠ item.2 := by omega
  simp [apart]

theorem passedCommand {others : BatchCheck} {index : Nat} (c : Command) (raw : Json) (rest : List Json)
    (later : ∀ x ∈ others.rejected, index + 1 ≤ x.index) :
    passed { others with accepted := c :: others.accepted } index (raw :: rest) =
      (raw, index) :: others.passed (index + 1) rest := by
  have unnamed : (others.rejected.any fun x => x.index = index) = false := by
    rw [List.any_eq_false]
    intro x listed
    have behind := later x listed
    simp only [decide_eq_true_eq]
    omega
  simp [passed, List.zipIdx_cons, unnamed]

inductive Scanned (k : Kind) (limit : Option Int) (index count : Nat) (raw : Json) (rest : List Json) :
    BatchCheck → Prop where
  | late {others : BatchCheck} (full : isFull limit count = true)
      (onward : scan k limit (index + 1) count rest = others) :
      Scanned k limit index count raw rest { others with rejected := ⟨index, .overLimit⟩ :: others.rejected }
  | kept {others : BatchCheck} {c : Command} (room : isFull limit count = false) (valid : validate k raw = .ok c)
      (onward : scan k limit (index + 1) (count + 1) rest = others) :
      Scanned k limit index count raw rest { others with accepted := c :: others.accepted }
  | refused {others : BatchCheck} {refusal : Refusal} (room : isFull limit count = false)
      (invalid : validate k raw = .error refusal) (onward : scan k limit (index + 1) count rest = others) :
      Scanned k limit index count raw rest { others with rejected := ⟨index, .refused refusal⟩ :: others.rejected }

theorem scanned (k : Kind) (limit : Option Int) (index count : Nat) (raw : Json) (rest : List Json) :
    Scanned k limit index count raw rest (scan k limit index count (raw :: rest)) := by
  rw [scan]
  split
  · rename_i full
    exact .late full rfl
  · rename_i room
    split
    · rename_i c valid
      exact .kept (by simpa using room) valid rfl
    · rename_i refusal invalid
      exact .refused (by simpa using room) invalid rfl

structure Sorts (k : Kind) (index : Nat) (raws : List Json) (check : BatchCheck) : Prop where
  behind : ∀ x ∈ check.rejected, index ≤ x.index
  apart : ((check.passed index raws).map (·.2) ++ check.rejected.map (·.index)).Perm (List.range' index raws.length)
  rising : (check.rejected.map (·.index)).Pairwise (· < ·)
  ordered : List.Forall₂ (fun item c => validate k item.1 = .ok c) (check.passed index raws) check.accepted

theorem sortsRejection {others : BatchCheck} {index : Nat} {rest : List Json} (sorts : others.Sorts k (index + 1) rest)
    (reason : RejectionReason) (raw : Json) :
    Sorts k index (raw :: rest) { others with rejected := ⟨index, reason⟩ :: others.rejected } := by
  refine ⟨List.forall_mem_cons.mpr ⟨Nat.le_refl index, fun x listed => ?_⟩, ?_, ?_, ?_⟩
  · exact Nat.le_of_succ_le (sorts.behind x listed)
  · rw [passedRejection, List.length_cons, List.range'_succ]
    exact List.perm_middle.trans (.cons index sorts.apart)
  · exact .cons (List.forall_mem_map.mpr sorts.behind) sorts.rising
  · rw [passedRejection]
    exact sorts.ordered

theorem sortsCommand {others : BatchCheck} {index : Nat} {raw : Json} {rest : List Json} {c : Command}
    (sorts : others.Sorts k (index + 1) rest) (valid : validate k raw = .ok c) :
    Sorts k index (raw :: rest) { others with accepted := c :: others.accepted } := by
  refine ⟨fun x listed => Nat.le_of_succ_le (sorts.behind x listed), ?_, sorts.rising, ?_⟩
  · rw [passedCommand _ _ _ sorts.behind, List.length_cons, List.range'_succ]
    exact .cons index sorts.apart
  · rw [passedCommand _ _ _ sorts.behind]
    exact .cons valid sorts.ordered

theorem scanSorts (k : Kind) (limit : Option Int) (index count : Nat) (raws : List Json) :
    (scan k limit index count raws).Sorts k index raws := by
  induction raws generalizing index count with
  | nil => exact ⟨List.forall_mem_nil _, .refl [], .nil, .nil⟩
  | cons raw rest ih =>
    have form := scanned k limit index count raw rest
    generalize scan k limit index count (raw :: rest) = check at form ⊢
    cases form with
    | late _ onward => exact sortsRejection (onward ▸ ih (index + 1) count) .overLimit raw
    | kept _ valid onward => exact sortsCommand (onward ▸ ih (index + 1) (count + 1)) valid
    | refused _ _ onward => exact sortsRejection (onward ▸ ih (index + 1) count) _ raw

theorem passedWhen (index count : Nat) {raws : List Json} {item : Json × Nat} (given : item ∈ raws.zipIdx index) :
    item ∈ (scan k limit index count raws).passed index raws ↔ (∃ c, validate k item.1 = .ok c) ∧
      isFull limit (count + ((scan k limit index count raws).passed index raws).countP (·.2 < item.2)) = false := by
  induction raws generalizing index count with
  | nil => simp at given
  | cons raw rest ih =>
    have none (check : BatchCheck) : (check.passed (index + 1) rest).countP (·.2 < index) = 0 := by
      rw [List.countP_eq_zero]
      intro x listed
      have behind := passedFrom x listed
      simp only [decide_eq_true_eq]
      omega
    have absent (check : BatchCheck) : (raw, index) ∉ check.passed (index + 1) rest := fun listed =>
      absurd (passedFrom _ listed) (Nat.not_succ_le_self index)
    have form := scanned k limit index count raw rest
    generalize scan k limit index count (raw :: rest) = check at form ⊢
    rw [List.zipIdx_cons] at given
    rcases List.mem_cons.mp given with rfl | later
    · cases form with
      | late full onward => simp [passedRejection, absent, none, full]
      | kept room valid onward =>
        subst onward
        simp [passedCommand _ _ _ (rejectedFrom _ _ rest), none, room, valid]
      | refused _ invalid onward => simp [passedRejection, absent, invalid]
    · have behind : index < item.2 := List.le_snd_of_mem_zipIdx later
      cases form with
      | late _ onward =>
        subst onward
        rw [passedRejection]
        exact ih (index + 1) count later
      | kept _ _ onward =>
        subst onward
        rw [passedCommand _ _ _ (rejectedFrom _ _ rest)]
        have other : item ≠ (raw, index) := fun same => by simp [same] at behind
        have onward := ih (index + 1) (count + 1) later
        simpa [other, behind, Nat.add_assoc, Nat.add_comm 1] using onward
      | refused _ _ onward =>
        subst onward
        rw [passedRejection]
        exact ih (index + 1) count later

theorem unlimitedAccepts (k : Kind) (index count : Nat) (raws : List Json) :
    (scan k none index count raws).accepted = raws.filterMap fun raw => (validate k raw).toOption := by
  induction raws generalizing index count with
  | nil => rfl
  | cons raw rest ih => cases valid : validate k raw <;> simp [scan, isFull, valid, ih, Except.toOption]

theorem limitedAccepts (k : Kind) (most : Int) (index count : Nat) (raws : List Json) :
    (scan k (some most) index count raws).accepted =
      (raws.filterMap fun raw => (validate k raw).toOption).take (most - count).toNat := by
  induction raws generalizing index count with
  | nil => simp [scan]
  | cons raw rest ih =>
    have form := scanned k (some most) index count raw rest
    generalize scan k (some most) index count (raw :: rest) = check at form ⊢
    cases form with
    | late full onward =>
      subst onward
      have used : (most - count).toNat = 0 := by
        simp only [isFull, decide_eq_true_eq] at full
        omega
      simp [ih, used]
    | kept room valid onward =>
      subst onward
      have left : (most - count).toNat = (most - (count + 1 : Nat)).toNat + 1 := by
        simp only [isFull, decide_eq_false_iff_not] at room
        omega
      simp [ih, valid, left, Except.toOption]
    | refused _ invalid onward =>
      subst onward
      simp [ih, invalid, Except.toOption]

structure Accounts (k : Kind) (limit : Option Int) (raws : List Json) (check : BatchCheck) : Prop where
  apart : ((check.passed 0 raws).map (·.2) ++ check.rejected.map (·.index)).Perm (List.range raws.length)
  rising : (check.rejected.map (·.index)).Pairwise (· < ·)
  ordered : List.Forall₂ (fun item c => validate k item.1 = .ok c) (check.passed 0 raws) check.accepted
  cut : ∀ most ∈ limit, check.accepted = (validateBatch k none raws).accepted.take most.toNat
  decided : ∀ item ∈ raws.zipIdx, item ∈ check.passed 0 raws ↔ (∃ c, validate k item.1 = .ok c) ∧
    ∀ most ∈ limit, ((check.passed 0 raws).countP (·.2 < item.2) : Int) < most

theorem accounts (k : Kind) (limit : Option Int) (raws : List Json) :
    (validateBatch k limit raws).Accounts k limit raws := by
  have sorts := scanSorts k limit 0 0 raws
  refine ⟨?_, sorts.rising, sorts.ordered, ?_, fun item given => ?_⟩
  · rw [List.range_eq_range']
    exact sorts.apart
  · rintro most ⟨⟩
    rw [validateBatch, validateBatch, limitedAccepts, unlimitedAccepts]
    simp
  · have room (n : Nat) : isFull limit n = false ↔ ∀ most ∈ limit, (n : Int) < most := by
      cases limit <;> simp [isFull]
    rw [← room]
    simpa [validateBatch] using @passedWhen k limit 0 0 raws item given

theorem accountsLength {raws : List Json} {check : BatchCheck} (whole : check.Accounts k limit raws) :
    check.accepted.length + check.rejected.length = raws.length := by
  have all := whole.apart.length_eq
  rw [List.length_append, List.length_map, List.length_map, List.length_range] at all
  rw [← whole.ordered.length_eq]
  exact all

end BatchCheck

namespace Store

variable {s : Store} {held : Document}

theorem commandOfOutcome {c : Command} {o : Outcome} (done : (s.applyCommand held c).1 = .ok o) : o.command = c := by
  unfold applyCommand at done
  split at done
  · split at done
    · contradiction
    · cases done
      unfold compoundOutcome
      dsimp only
      split <;> rfl
  · split at done
    · contradiction
    · cases done
      unfold singleOutcome
      split <;> rfl

theorem commandsOfOutcomes {cs : List Command} {os : List Outcome} (done : (s.applyCommands held cs).1 = .ok os) :
    os.map (·.command) = cs := by
  induction cs generalizing s os with
  | nil =>
    cases done
    rfl
  | cons c rest ih =>
    obtain ⟨o, os', first, tail, rfl⟩ := commandsCons done
    rw [List.map_cons, commandOfOutcome first, ih tail]

end Store

namespace Desk

variable {k k' : Desk} {d : Document} {b : Envelope} {r : BatchResult}

theorem outcomesTold (opened : k.session.document = some d) (done : k.applyBatch b = (.ok r, k'))
    (tells : r.needsClarification = false) : r.outcomes.map (·.command) = (k.check d b).accepted := by
  simp only [applyBatch, opened] at done
  split at done
  · cases done
    contradiction
  · split at done
    · rename_i none
      cases done
      exact (List.isEmpty_iff.mp none).symm
    · obtain ⟨store, applied, _⟩ := appliedBatch done
      exact Store.commandsOfOutcomes (congrArg (·.1) applied)

theorem countsAdd (r : BatchResult) : r.applied + r.failed = r.outcomes.length :=
  Nat.add_sub_cancel' List.countP_le_length

theorem batchAccounted :
    (∀ (kind : Kind) (limit : Option Int) (raws : List Json),
      (validateBatch kind limit raws).Accounts kind limit raws) ∧
    ∀ {k k' : Desk} {d : Document} {b : Envelope} {r : BatchResult}, k.session.document = some d →
      k.applyBatch b = (.ok r, k') → r.needsClarification = false →
        r.applied + r.failed + r.rejections.length = b.commands.length ∧
          r.outcomes.map (·.command) = (validateBatch d.kind k.session.limit b.commands).accepted := by
  refine ⟨BatchCheck.accounts, fun {k k' d b r} opened done tells => ?_⟩
  have outcomes := outcomesTold opened done tells
  refine ⟨?_, outcomes⟩
  have whole := BatchCheck.accounts d.kind k.session.limit b.commands
  have size := congrArg List.length outcomes
  rw [List.length_map] at size
  rw [countsAdd, size, rejectionsTold opened done]
  exact BatchCheck.accountsLength whole

def crowded : List Json := [.int 5, addition, addition]

theorem batchAccountedCrowded :
    (validateBatch .riskAssessment (some 1) crowded).Accounts .riskAssessment (some 1) crowded ∧
    ∃ r k', limited.applyBatch { commands := crowded } = (.ok r, k') ∧ r.applied = 1 ∧
      r.rejections = [⟨0, .refused (.malformed (.notRecord "Command"))⟩, ⟨2, .overLimit⟩] ∧
      r.applied + r.failed + r.rejections.length = 3 ∧
      r.outcomes.map (·.command) = (validateBatch .riskAssessment (some 1) crowded).accepted := by
  have answer : (limited.applyBatch { commands := crowded }).1.toOption.map
      (fun r => (r.needsClarification, r.applied, r.rejections)) =
      some (false, 1, [⟨0, .refused (.malformed (.notRecord "Command"))⟩, ⟨2, .overLimit⟩]) := by cbv
  obtain ⟨r, k', done, told⟩ := returnsOfMap answer
  obtain ⟨tells, counts⟩ := Prod.mk.inj told
  obtain ⟨applied, rejections⟩ := Prod.mk.inj counts
  obtain ⟨sum, order⟩ := batchAccounted.2 (d := blankCase) rfl done tells
  exact ⟨batchAccounted.1 _ _ _, r, k', done, applied, rejections, sum, order⟩

end Desk
end SafetyCase
