import Mathlib.Data.List.Nodup
import SafetyCase.Editor.Moves
import SafetyCase.Proofs.Gates
/-! A jump over several phases and as many single advances: the jump goes through exactly if all the advances do, and
where it is refused the advances stop at the first phase that it names. Nothing is assumed of the phases but that
their names are distinct. -/
namespace SafetyCase.PhaseGate

/-- So many advances one after the other: where the gate comes to stand, and what has stopped it short of the last. -/
def march (g : PhaseGate) (d : Document) : Nat → PhaseGate × Option GateFault
  | 0 => (g, none)
  | n + 1 =>
    match g.advance d with
    | .error fault => (g, some fault)
    | .ok moved => moved.march d n

def unfinishedAt (g : PhaseGate) (d : Document) (n : Nat) : Option String :=
  (g.definitions[n]?).bind fun p => if p.complete d then none else some p.name

def unfinished (g : PhaseGate) (d : Document) (i k : Nat) : List String :=
  (List.range' i (k - i)).filterMap (g.unfinishedAt d)

variable {g : PhaseGate} {d : Document} {i k : Nat} {target : String}

theorem unfinishedNone (behind : k ≤ i) : g.unfinished d i k = [] := by
  simp [unfinished, Nat.sub_eq_zero_of_le behind]

theorem unfinishedCons (ahead : i < k) :
    g.unfinished d i k = (g.unfinishedAt d i).toList ++ g.unfinished d (i + 1) k := by
  have span : k - i = k - (i + 1) + 1 := by omega
  rw [unfinished, span, List.range'_succ, List.filterMap_cons]
  cases g.unfinishedAt d i <;> rfl

theorem incompleteUnfinished (g : PhaseGate) (d : Document) (i k : Nat) : g.incomplete d i k = g.unfinished d i k := by
  induction span : k - i generalizing i with
  | zero =>
    have behind : k ≤ i := by omega
    rw [unfinishedNone behind, incomplete, List.drop_eq_nil_of_le (by simp; omega)]
    rfl
  | succ n ih =>
    have ahead : i < k := by omega
    rw [unfinishedCons ahead, ← ih (i + 1) (by omega), incomplete, incomplete]
    by_cases inside : i < g.definitions.length
    · have here : i < (g.definitions.take k).length := by simp; omega
      rw [List.drop_eq_getElem_cons here, List.getElem_take, List.filter_cons]
      cases complete : g.definitions[i].complete d <;> simp [unfinishedAt, inside, complete]
    · rw [List.drop_eq_nil_of_le (by simp; omega), List.drop_eq_nil_of_le (by simp; omega)]
      simp [unfinishedAt, Nat.le_of_not_lt inside]

theorem indexOf (distinct : g.names.Nodup) (goal : g.names[k]? = some target) : g.index target = .ok k := by
  obtain ⟨bound, rfl⟩ := List.getElem?_eq_some_iff.mp goal
  have found : g.names.idxOf? g.names[k] = some k :=
    List.idxOf?_eq_some_iff.mpr ⟨bound, rfl, fun j below same => by
      have equal := distinct.getElem_inj_iff.mp same
      omega⟩
  simp [index, found]

theorem jumpAt (distinct : g.names.Nodup) (here : g.names[i]? = some g.current) (goal : g.names[k]? = some target) :
    g.jump d target = if g.unfinished d i k = [] then .ok { g with current := target }
      else .error (.blocked target (g.unfinished d i k)) := by
  simp only [jump, indexOf distinct here, indexOf distinct goal, incompleteUnfinished]
  by_cases ahead : i < k
  · by_cases clear : g.unfinished d i k = [] <;> simp [ahead, clear]
  · simp [ahead, unfinishedNone (Nat.le_of_not_lt ahead)]

theorem terminalAt (distinct : g.names.Nodup) (here : g.names[i]? = some g.current) :
    g.isTerminal = true ↔ g.names[i + 1]? = none := by
  obtain ⟨bound, current⟩ := List.getElem?_eq_some_iff.mp here
  rw [isTerminal, decide_eq_true_iff, List.getLast?_eq_getElem?, ← here, List.getElem?_eq_none_iff]
  constructor
  · intro last
    have inside : g.names.length - 1 < g.names.length := by omega
    rw [List.getElem?_eq_getElem inside, List.getElem?_eq_getElem bound] at last
    have equal := distinct.getElem_inj_iff.mp (Option.some.inj last)
    omega
  · intro last
    rw [show g.names.length - 1 = i by omega]

theorem goesOn (distinct : g.names.Nodup) (here : g.names[i]? = some g.current) {next : String}
    (after : g.names[i + 1]? = some next) : g.isTerminal = false := by
  rw [Bool.eq_false_iff]
  exact fun last => by simp [(terminalAt distinct here).mp last] at after

theorem advanceAt (distinct : g.names.Nodup) (here : g.names[i]? = some g.current) {next : String}
    (after : g.names[i + 1]? = some next) : g.advance d = g.jump d next := by
  simp [advance, goesOn distinct here after, indexOf distinct here, after]

theorem marchStops (distinct : g.names.Nodup) (here : g.names[i]? = some g.current) (goal : g.names[k]? = some target)
    (reach : i ≤ k) :
    (g.unfinished d i k = [] → g.march d (k - i) = ({ g with current := target }, none)) ∧
    ∀ stop rest, g.unfinished d i k = stop :: rest →
      ∃ fault, g.march d (k - i) = ({ g with current := stop }, some fault) := by
  induction span : k - i generalizing g i with
  | zero =>
    obtain rfl : i = k := by omega
    obtain rfl : g.current = target := Option.some.inj (here.symm.trans goal)
    simp [unfinishedNone (Nat.le_refl i), march]
  | succ n ih =>
    have ahead : i < k := by omega
    obtain ⟨inside, _⟩ := List.getElem?_eq_some_iff.mp goal
    have after : g.names[i + 1]? = some g.names[i + 1] := List.getElem?_eq_getElem (by omega)
    have alone : g.unfinished d i (i + 1) = (g.unfinishedAt d i).toList := by
      rw [unfinishedCons (Nat.lt_succ_self i), unfinishedNone (Nat.le_refl _), List.append_nil]
    rw [unfinishedCons ahead, march, advanceAt distinct here after, jumpAt distinct here after, alone]
    cases unfinished : g.unfinishedAt d i with
    | none =>
      -- the gate is one phase on, and what is ahead of it is the same
      exact ih (g := { g with current := g.names[i + 1] }) (i := i + 1) distinct after goal (by omega) (by omega)
    | some stop =>
      have own : stop = g.current := by
        obtain ⟨p, phase, told⟩ := Option.bind_eq_some_iff.mp unfinished
        have named : g.names[i]? = some p.name := by simp [names, phase]
        split at told
        · contradiction
        · exact (Option.some.inj told).symm.trans (Option.some.inj (named.symm.trans here))
      refine ⟨by simp, fun first rest same => ?_⟩
      obtain rfl : stop = first := by simpa using (List.cons.inj same).1
      exact ⟨.blocked g.names[i + 1] [stop], by simp [own]⟩

theorem canAdvanceAt (distinct : g.names.Nodup) (here : g.names[i]? = some g.current) (d : Document) :
    ∃ b, g.canAdvance d = .ok b ∧ (b = true ↔ ∃ moved, g.advance d = .ok moved) := by
  cases after : g.names[i + 1]? with
  | none =>
    have last := (terminalAt distinct here).mpr after
    exact ⟨false, by simp [canAdvance, last], by simp [advance, last]⟩
  | some next =>
    have going := goesOn distinct here after
    obtain ⟨p, phase, _⟩ : ∃ p, g.definitions[i]? = some p ∧ p.name = g.current :=
      Option.map_eq_some_iff.mp (by simpa [names] using here)
    refine ⟨p.complete d, by simp [canAdvance, going, isComplete, indexOf distinct here, phase], ?_⟩
    rw [advanceAt distinct here after, jumpAt distinct here after, unfinishedCons (Nat.lt_succ_self i),
      unfinishedNone (Nat.le_refl _)]
    cases complete : p.complete d <;> simp [unfinishedAt, phase, complete]

theorem forwardJump (distinct : g.names.Nodup) (here : g.names[i]? = some g.current) (d : Document) :
    (∀ k target, g.names[k]? = some target → i < k →
      ((∃ moved, g.jump d target = .ok moved) ↔ (g.march d (k - i)).2 = none) ∧
      (∀ moved, g.jump d target = .ok moved →
        moved = { g with current := target } ∧ (g.march d (k - i)).1 = { g with current := target }) ∧
      ∀ fault, g.jump d target = .error fault →
        fault = .blocked target (g.unfinished d i k) ∧
        (g.unfinished d i k).head? = some (g.march d (k - i)).1.current ∧
        ∀ desk : Desk, desk.session.gate = some g → desk.session.document = some d → (desk.jump target).2 = desk) ∧
    (∀ k target, g.names[k]? = some target → k ≤ i → g.jump d target = .ok { g with current := target }) ∧
    ∃ b, g.canAdvance d = .ok b ∧ (b = true ↔ ∃ moved, g.advance d = .ok moved) := by
  refine ⟨fun k target goal ahead => ?_, fun k target goal behind => ?_, canAdvanceAt distinct here d⟩
  · obtain ⟨through, stops⟩ := marchStops (d := d) distinct here goal (Nat.le_of_lt ahead)
    have jumps := jumpAt (d := d) distinct here goal
    cases unfinished : g.unfinished d i k with
    | nil =>
      rw [if_pos unfinished] at jumps
      rw [jumps, through unfinished]
      exact ⟨by simp, fun moved same => ⟨(Except.ok.inj same).symm, rfl⟩, by simp⟩
    | cons stop rest =>
      obtain ⟨fault, stopped⟩ := stops stop rest unfinished
      rw [if_neg (by simp [unfinished]), unfinished] at jumps
      refine ⟨by simp [jumps, stopped], by simp [jumps], fun refused same => ⟨?_, by simp [stopped], ?_⟩⟩
      · rw [jumps] at same
        exact (Except.error.inj same).symm
      · intro desk gate opened
        simp [Desk.jump, Desk.move, gate, opened, jumps]
  · rw [jumpAt distinct here goal, if_pos (unfinishedNone behind)]

def begun : Document :=
  { id := .numbered 1, kind := .riskAssessment, title := "Demo", phase := "PROCESS_STEPS", createdAt := ⟨0⟩,
    updatedAt := ⟨0⟩, steps := [⟨.numbered 2, none, 0, EntityType.step.attributes⟩],
    hazards := [⟨.numbered 3, some (.numbered 2), 0, EntityType.hazard.attributes⟩] }

def atSteps : PhaseGate := ⟨Kind.riskAssessment.phases, "PROCESS_STEPS"⟩

theorem forwardJumpStopped : atSteps.names.Nodup ∧ atSteps.names[0]? = some atSteps.current ∧
    atSteps.jump begun "CONTROL_DISCUSSION" =
      .error (.blocked "CONTROL_DISCUSSION" ["HAZARD_IDENTIFICATION", "RISK_RATING"]) ∧
    (atSteps.march begun 3).1.current = "HAZARD_IDENTIFICATION" ∧ (atSteps.march begun 3).2 ≠ none := by
  have distinct : atSteps.names.Nodup := Kind.riskAssessment.phaseNamesDistinct
  have goal : atSteps.names[3]? = some "CONTROL_DISCUSSION" := by decide
  have unfinished : atSteps.unfinished begun 0 3 = ["HAZARD_IDENTIFICATION", "RISK_RATING"] := by decide
  obtain ⟨ahead, -⟩ := forwardJump (i := 0) distinct rfl begun
  obtain ⟨through, -, refused⟩ := ahead 3 "CONTROL_DISCUSSION" goal (by decide)
  have stops : ¬∃ moved, atSteps.jump begun "CONTROL_DISCUSSION" = .ok moved := by
    rw [jumpAt (i := 0) distinct rfl goal, unfinished]
    simp
  obtain ⟨fault, jumps⟩ : ∃ fault, atSteps.jump begun "CONTROL_DISCUSSION" = .error fault := by
    cases jumps : atSteps.jump begun "CONTROL_DISCUSSION" with
    | ok moved => exact absurd ⟨moved, jumps⟩ stops
    | error fault => exact ⟨fault, rfl⟩
  obtain ⟨rfl, head, -⟩ := refused fault jumps
  rw [unfinished] at jumps head
  exact ⟨distinct, rfl, jumps, (Option.some.inj head).symm, fun free => stops (through.mpr free)⟩

end SafetyCase.PhaseGate
