import SafetyCase.Proofs.Acceptance
import SafetyCase.Proofs.Edits
/-! Edits tried one after the other, until one cannot reach its case. A list of commands is the list of its
edits: compound commands add nothing to what their parts do. -/
namespace SafetyCase

def Outcome.tried (o : Outcome) : List EditOutcome :=
  if o.command.target = .multiple then o.parts
  else match o.settled with
    | .ok id => [⟨o.command.toEdit, .ok id⟩]
    | .error (.edit fault) => [⟨o.command.toEdit, .error fault⟩]
    | .error (.parts _ _ _) => []

namespace Store

def passing (s : Store) (held : Document) : List Edit → List Store
  | [] => []
  | e :: rest =>
    (s.applyEdit held e).2 :: match (s.applyEdit held e).1 with
      | .error _ => []
      | .ok _ => passing (s.applyEdit held e).2 held rest

variable {s s' : Store} {held : Document}

theorem passingEnds (s : Store) (held : Document) (edits : List Edit) :
    (s.applyEdits held edits).2 = (s.passing held edits).getLast?.getD s := by
  induction edits generalizing s with
  | nil => rfl
  | cons e rest ih =>
    simp only [applyEdits, passing, List.getLast?_cons]
    generalize s.applyEdit held e = r
    obtain ⟨abort | o, s'⟩ := r
    · rfl
    · have tail := ih s'
      dsimp only
      split <;> simp_all

theorem editsKeep {P : Store → Prop} {edits : List Edit} (each : ∀ s, ∀ e ∈ edits, P s → P (s.applyEdit held e).2)
    (start : P s) : (∀ p ∈ s.passing held edits, P p) ∧ P (s.applyEdits held edits).2 := by
  have along : ∀ p ∈ s.passing held edits, P p := by
    induction edits generalizing s with
    | nil => simp [passing]
    | cons e rest ih =>
      have next := each s e List.mem_cons_self start
      intro p passed
      rcases List.mem_cons.mp passed with rfl | later
      · exact next
      · split at later
        · contradiction
        · exact ih (fun s e listed => each s e (List.mem_cons_of_mem _ listed)) next p later
  refine ⟨along, ?_⟩
  rw [passingEnds]
  cases last : (s.passing held edits).getLast? with
  | none => exact start
  | some p => exact along p (List.mem_of_getLast? last)

theorem editOfOutcome {e : Edit} {o : EditOutcome} (done : (s.applyEdit held e).1 = .ok o) : o.edit = e := by
  have settled (r : Except StoreFault (Option Identifier) × Store) (done : (settle held e r).1 = .ok o) :
      o.edit = e := by
    obtain ⟨(_ | _) | id, s'⟩ := r <;> cases done <;> rfl
  unfold applyEdit at done
  dsimp only at done
  split at done
  · cases done
    rfl
  · split at done
    · split at done
      · contradiction
      · exact settled _ done
    · exact settled _ done

theorem editsCons {e : Edit} {rest : List Edit} {os : List EditOutcome}
    (done : s.applyEdits held (e :: rest) = (.ok os, s')) : ∃ o os' s₁, s.applyEdit held e = (.ok o, s₁) ∧ o.edit = e ∧
      s₁.applyEdits held rest = (.ok os', s') ∧ os = o :: os' := by
  have edit : ∀ o, (s.applyEdit held e).1 = .ok o → o.edit = e := fun _ => editOfOutcome
  simp only [applyEdits] at done
  generalize s.applyEdit held e = r at done edit
  obtain ⟨abort | o, s₁⟩ := r
  · cases done
  · dsimp only at done
    generalize tail : s₁.applyEdits held rest = r at done
    obtain ⟨abort | os', s₂⟩ := r
    · cases done
    · cases done
      exact ⟨o, os', s₁, rfl, edit o rfl, tail, rfl⟩

theorem commandsCons {c : Command} {rest : List Command} {os : List Outcome}
    (done : (s.applyCommands held (c :: rest)).1 = .ok os) : ∃ o os', (s.applyCommand held c).1 = .ok o ∧
      ((s.applyCommand held c).2.applyCommands held rest).1 = .ok os' ∧ os = o :: os' := by
  simp only [applyCommands] at done
  generalize s.applyCommand held c = r at done
  obtain ⟨abort | o, s₁⟩ := r
  · cases done
  · dsimp only at done ⊢
    generalize s₁.applyCommands held rest = r at done
    obtain ⟨abort | os', s₂⟩ := r
    · cases done
    · cases done
      exact ⟨o, os', rfl, rfl, rfl⟩

theorem applyEditsAppend (s : Store) (held : Document) (first second : List Edit) :
    s.applyEdits held (first ++ second) = match s.applyEdits held first with
      | (.error abort, s') => (.error abort, s')
      | (.ok os, s') => ((s'.applyEdits held second).1.map (os ++ ·), (s'.applyEdits held second).2) := by
  induction first generalizing s with
  | nil => cases tail : s.applyEdits held second with | mk r s' => cases r <;> simp [applyEdits, tail, Except.map]
  | cons e rest ih =>
    simp only [List.cons_append, applyEdits]
    generalize s.applyEdit held e = r
    obtain ⟨abort | o, s'⟩ := r
    · rfl
    · dsimp only
      rw [ih]
      generalize s'.applyEdits held rest = r
      obtain ⟨abort | os, s''⟩ := r
      · rfl
      · dsimp only
        generalize s''.applyEdits held second = r
        obtain ⟨abort | os', s'''⟩ := r <;> rfl

theorem commandAsEdits (s : Store) (held : Document) (c : Command) :
    s.applyEdits held c.leaves = ((s.applyCommand held c).1.map Outcome.tried, (s.applyCommand held c).2) := by
  unfold applyCommand Command.leaves
  split
  · rename_i compound
    generalize s.applyEdits held c.parts = r
    obtain ⟨abort | parts, s'⟩ := r
    · rfl
    · have tried : (compoundOutcome c parts).tried = parts := by
        unfold compoundOutcome
        dsimp only
        split <;> simp [Outcome.tried, compound]
      simp [Except.map, tried]
  · rename_i single
    have edit : ∀ o, (s.applyEdit held c.toEdit).1 = .ok o → o.edit = c.toEdit := fun _ => editOfOutcome
    simp only [applyEdits]
    generalize s.applyEdit held c.toEdit = r at edit
    obtain ⟨abort | o, s'⟩ := r
    · rfl
    · have tried : (singleOutcome c o).tried = [o] := by
        have same := edit o rfl
        obtain ⟨_, fault | id⟩ := o <;> simp_all [singleOutcome, Outcome.tried]
      simp [Except.map, tried]

theorem commandsAsEdits (s : Store) (held : Document) (cs : List Command) :
    s.applyEdits held (cs.flatMap Command.leaves) =
      ((s.applyCommands held cs).1.map (·.flatMap Outcome.tried), (s.applyCommands held cs).2) := by
  induction cs generalizing s with
  | nil => rfl
  | cons c rest ih =>
    rw [List.flatMap_cons, applyEditsAppend, commandAsEdits, applyCommands]
    generalize s.applyCommand held c = r
    obtain ⟨abort | o, s'⟩ := r
    · rfl
    · simp only [Except.map]
      rw [ih]
      generalize s'.applyCommands held rest = r
      obtain ⟨abort | os, s''⟩ := r <;> rfl

end Store
end SafetyCase
