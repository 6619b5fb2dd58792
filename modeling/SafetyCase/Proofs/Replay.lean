import SafetyCase.Proofs.Anchors
import SafetyCase.Proofs.Refusals
/-! Failed edits leave nothing behind. No edit that was accepted asks for a field that its type lacks, so a call of the
store that is refused is refused as a whole; what a run of commands does is what the calls of its applied edits do
by themselves. The journal is left out of account. -/
namespace SafetyCase

variable {held : Document} {e : Edit} {w : Write}

namespace Edit

theorem updatesOfCall {id x : Identifier} {t : EntityType} {changes : List (String × Value)}
    (call : e.write? held = some (.update id t x changes)) :
    ∃ y, held.resolve e = .ok (.entity t y) ∧ e.updates? held = some changes := by
  unfold write? at call
  split at call
  · contradiction
  · rename_i r found
    split at call
    · rename_i t' y rates
      obtain ⟨rating, rated, same⟩ := Option.map_eq_some_iff.mp call
      cases same
      exact ⟨y, found, by simp [updates?, rates, rated]⟩
    · rename_i r _ _ other
      have plain : e.target ≠ .assessment := fun rates => by
        obtain ⟨t, y, entity⟩ := Store.assessedEntity rates found
        exact other t y rates entity
      have same := Option.some.inj call
      cases r with
      | placement => cases same
      | ordering => cases same
      | entity t' y =>
        simp only [write] at same
        split at same
        · contradiction
        · rename_i kept
          cases same
          exact ⟨y, found, by simp [updates?, plain, kept]⟩

theorem orderCalls {refs : List String} (intent : e.intent = .reorder) (payload : e.payload = some (.order refs))
    (call : e.write? held = some w) : ∃ t parent ids, w = .reorder held.id t parent ids := by
  unfold write? at call
  split at call
  · contradiction
  · rename_i r found
    cases Document.resolved found with
    | assessed rates => simp [rates, newRating?, intent, payload] at call
    | existing _ _ other => simp [intent] at other
    | placed _ _ other => simp [intent] at other
    | @ordered t parent ids _ plain =>
      split at call
      · contradiction
      · exact ⟨t, parent, ids, (Option.some.inj call).symm⟩

theorem fitWhole (fits : e.Fits held.kind) (call : e.write? held = some w) : w.Whole := by
  cases w with
  | update id t x changes =>
    obtain ⟨y, found, set⟩ := updatesOfCall call
    exact fitKnown fits found set
  | create | delete | reorder | replace | rephase => trivial

theorem asksIdle (asks : e.Asks) (held : Document) : e.write? held = none := by
  obtain ⟨intent, q, payload⟩ := asks
  unfold write?
  split
  · rfl
  · rename_i r found
    cases Document.resolved found with
    | assessed rates => simp [rates, newRating?, intent, payload]
    | existing _ _ other => simp [intent] at other
    | placed _ _ other => simp [intent] at other
    | ordered _ _ other => simp [intent] at other

end Edit

namespace Store

variable {s s' : Store}

/-- A refused call of the edit leaves the store as it is. -/
def Sheltered (held : Document) (e : Edit) : Prop := ∀ w, e.write? held = some w → w.Whole

theorem acceptedSheltered {cs : List Command} (accepted : ∀ c ∈ cs, ∃ raw, validate held.kind raw = .ok c) :
    ∀ e ∈ cs.flatMap Command.leaves, Sheltered held e := by
  intro e listed w call
  obtain ⟨c, among, leaf⟩ := List.mem_flatMap.mp listed
  obtain ⟨raw, done⟩ := accepted c among
  rcases validated done with ⟨_, asks⟩ | made
  · rw [Edit.asksIdle (asks e leaf) held] at call
    contradiction
  · exact Edit.fitWhole (Draft.madeFits (made e leaf)) call

def replay (s : Store) : List Write → Except StoreFault Store
  | [] => .ok s
  | w :: rest =>
    match s.write w with
    | (.error fault, _) => .error fault
    | (.ok _, s) => replay s rest

inductive Weighed (s : Store) (held : Document) (e : Edit) (s' : Store) : Option EditFault → Prop where
  | failed {fault : EditFault} (same : s'.quiet = s.quiet) : Weighed s held e s' (some fault)
  | applied {w : Write} (call : e.write? held = some w) (accepted : (s.write w).1 = .ok ())
      (same : s'.quiet = (s.write w).2.quiet) : Weighed s held e s' none

theorem weighed (sheltered : Sheltered held e) {o : EditOutcome} (done : s.applyEdit held e = (.ok o, s')) :
    Weighed s held e s' o.fault? := by
  have form := carried s held e
  rw [done] at form
  have unapplied (failing : Failing (.ok o)) (same : s'.quiet = s.quiet) : Weighed s held e s' o.fault? := by
    obtain ⟨fault, failed⟩ := Option.isSome_iff_exists.mp (failing o rfl)
    rw [failed]
    exact .failed same
  cases form with
  | idle _ failing same => exact unapplied failing same
  | refused call rejected failing same =>
    rw [wholeRefused (sheltered _ call) rejected] at same
    exact unapplied failing same
  | applied call accepted same => exact .applied call accepted same

theorem editsTried {edits : List Edit} {os : List EditOutcome} (done : s.applyEdits held edits = (.ok os, s')) :
    os.map (·.edit) = edits := by
  induction edits generalizing s os with
  | nil =>
    cases done
    rfl
  | cons e rest ih =>
    obtain ⟨o, os', s₁, _, edit, tail, rfl⟩ := editsCons done
    rw [List.map_cons, edit, ih tail]

theorem editsReplay {edits : List Edit} {os : List EditOutcome} {p : Store} (sheltered : ∀ e ∈ edits, Sheltered held e)
    (done : s.applyEdits held edits = (.ok os, s')) (alike : p.quiet = s.quiet) :
    ∃ ws p', (os.filter (·.fault?.isNone)).map (·.edit.write? held) = ws.map some ∧ p.replay ws = .ok p' ∧
      p'.quiet = s'.quiet := by
  induction edits generalizing s os p with
  | nil =>
    cases done
    exact ⟨[], p, rfl, rfl, alike⟩
  | cons e rest ih =>
    obtain ⟨o, os', s₁, first, edit, tail, rfl⟩ := editsCons done
    have form := weighed (sheltered e List.mem_cons_self) first
    have onward {p : Store} (alike : p.quiet = s₁.quiet) :=
      ih (p := p) (fun e listed => sheltered e (List.mem_cons_of_mem _ listed)) tail alike
    generalize fault : o.fault? = f at form
    cases form with
    | failed same =>
      -- no call is made for it, and the run goes on from a store like the one before
      obtain ⟨ws, p', calls, replayed, ends⟩ := onward (alike.trans same.symm)
      exact ⟨ws, p', by simpa [fault] using calls, replayed, ends⟩
    | @applied w call accepted same =>
      obtain ⟨answer, store⟩ := writeAlike alike w
      obtain ⟨ws, p', calls, replayed, ends⟩ := onward (store.trans same.symm)
      refine ⟨w :: ws, p', by simpa [fault, edit, call] using calls, ?_, ends⟩
      rw [replay]
      generalize p.write w = r at answer replayed
      obtain ⟨refusal | _, p₁⟩ := r
      · rw [accepted] at answer
        contradiction
      · exact replayed

def atTurn (s : Store) (held : Document) (before : List EditOutcome) : Store :=
  (s.applyEdits held (before.map (·.edit))).2

theorem failedLeavesIdle {cs : List Command} {os : List Outcome}
    (accepted : ∀ c ∈ cs, ∃ raw, validate held.kind raw = .ok c) (done : s.applyCommands held cs = (.ok os, s')) :
    (os.flatMap Outcome.tried).map (·.edit) = cs.flatMap Command.leaves ∧
      (∀ before o after, os.flatMap Outcome.tried = before ++ o :: after → o.fault? ≠ none →
        ((s.atTurn held before).applyEdit held o.edit).1 = .ok o ∧
          ((s.atTurn held before).applyEdit held o.edit).2.quiet = (s.atTurn held before).quiet) ∧
      ∃ ws p, ((os.flatMap Outcome.tried).filter (·.fault?.isNone)).map (·.edit.write? held) = ws.map some ∧
        s.replay ws = .ok p ∧ p.quiet = s'.quiet := by
  have sheltered := acceptedSheltered accepted
  have run : s.applyEdits held (cs.flatMap Command.leaves) = (.ok (os.flatMap Outcome.tried), s') := by
    rw [commandsAsEdits, done]
    rfl
  have edits := editsTried run
  refine ⟨edits, fun before o after split failed => ?_, editsReplay sheltered run rfl⟩
  have turn : ((s.atTurn held before).applyEdit held o.edit).1 = .ok o := editsSplit (by rw [run, split])
  have listed : o.edit ∈ cs.flatMap Command.leaves := by
    rw [← edits, split]
    simp
  refine ⟨turn, ?_⟩
  have form := weighed (sheltered _ listed) (Prod.ext turn rfl)
  generalize fault : o.fault? = f at form
  cases form with
  | failed same => exact same
  | applied => exact absurd fault failed

def attempted : List Command := (Desk.blank.check Desk.blankCase Desk.partly).accepted

theorem failedLeavesIdlePartly : ∃ os s' w p, Desk.blank.store.applyCommands Desk.blankCase attempted = (.ok os, s') ∧
    (os.flatMap Outcome.tried).map (·.fault?.isNone) = [true, false] ∧
    Desk.blank.store.replay [w] = .ok p ∧ p.quiet = s'.quiet := by
  have accepted : ∀ c ∈ attempted, ∃ raw, validate Desk.blankCase.kind raw = .ok c := fun c kept => by
    obtain ⟨_, raw, _, _, done, _⟩ := scannedAt.mp kept
    exact ⟨raw, done⟩
  have answer : (Desk.blank.store.applyCommands Desk.blankCase attempted).1.toOption.map (fun os =>
      ((os.flatMap Outcome.tried).map (·.fault?.isNone),
        ((os.flatMap Outcome.tried).filter (·.fault?.isNone)).length)) = some ([true, false], 1) := by cbv
  obtain ⟨⟨_ | os, s'⟩, done⟩ : ∃ a, Desk.blank.store.applyCommands Desk.blankCase attempted = a := ⟨_, rfl⟩
  · rw [done] at answer
    contradiction
  · rw [done] at answer
    obtain ⟨faults, length⟩ := Prod.mk.inj (Option.some.inj answer)
    obtain ⟨ws, p, calls, replayed, same⟩ := (failedLeavesIdle accepted done).2.2
    have single : ws.length = 1 := by rw [← List.length_map, ← calls, List.length_map, length]
    obtain ⟨w, rfl⟩ := List.length_eq_one_iff.mp single
    exact ⟨os, s', w, p, done, faults, replayed, same⟩

end Store
end SafetyCase
