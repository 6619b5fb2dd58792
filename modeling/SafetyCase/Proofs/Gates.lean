import SafetyCase.Phase.Gate
/-! Where a gate stands, and what it takes to move it: every phase that is passed over is complete in the document
that the gate is shown. -/
namespace SafetyCase

def Kind.place? (k : Kind) (name : String) : Option Nat := k.phaseNames.idxOf? name

/-- The phases from one place up to another one are complete, that other one left out. -/
def Document.Passed (d : Document) (i j : Nat) : Prop :=
  ∀ n p, i ≤ n → n < j → d.kind.phases[n]? = some p → p.complete d = true

variable {d : Document} {g gate : PhaseGate} {i j k : Nat}

theorem Kind.namedPlace {kind : Kind} {name : String} (placed : kind.place? name = some i) : name ≠ "" := by
  have listed : name ∈ kind.phaseNames := List.isSome_idxOf?.mp (by rw [← place?, placed]; rfl)
  rintro rfl
  revert listed
  cases kind <;> decide

theorem Kind.completeRephased (kind : Kind) (d : Document) (phase : String) (now : Moment) :
    ∀ p ∈ kind.phases, p.complete { d with phase, updatedAt := now } = p.complete d := by
  cases kind <;> simp only [phases, List.forall_mem_cons] <;> and_intros <;> first | rfl | simp

theorem Document.Passed.here (d : Document) (i : Nat) : d.Passed i i := fun n p _ _ => by omega

theorem Document.Passed.trans (first : d.Passed i j) (second : d.Passed j k) : d.Passed i k := by
  intro n p above below phase
  by_cases early : n < j
  · exact first n p above early phase
  · exact second n p (by omega) below phase

namespace PhaseGate

theorem startForm (gated : forDocument d = .ok gate) :
    gate.definitions = d.kind.phases ∧ gate.current = if d.phase = "" then d.kind.firstPhase else d.phase := by
  unfold forDocument start at gated
  split at gated
  · contradiction
  · rename_i first rest phases
    have name : d.kind.firstPhase = first.name := by simp [Kind.firstPhase, Kind.phaseNames, phases]
    dsimp only at gated
    split at gated
    · cases gated
      exact ⟨rfl, by rw [name]⟩
    · contradiction

theorem opens (known : d.phase ∈ d.kind.phaseNames) : ∃ gate, forDocument d = .ok gate := by
  have named : (if d.phase = "" then d.kind.firstPhase else d.phase) ∈ d.kind.phaseNames := by
    split
    · exact d.kind.firstPhaseListed
    · exact known
  unfold forDocument start
  split
  · rename_i none
    simp [Kind.phaseNames, none] at known
  · rename_i first rest phases
    have name : d.kind.firstPhase = first.name := by simp [Kind.firstPhase, Kind.phaseNames, phases]
    rw [name] at named
    obtain ⟨i, found⟩ := Option.isSome_iff_exists.mp (List.isSome_idxOf? (l := d.kind.phaseNames) |>.mpr named)
    rw [Kind.phaseNames] at found
    refine ⟨⟨d.kind.phases, if d.phase = "" then first.name else d.phase⟩, ?_⟩
    simp only [index, names, found]

theorem indexFound {name : String} (found : g.index name = .ok i) : g.names.idxOf? name = some i := by
  unfold index at found
  split at found
  · cases found
    assumption
  · contradiction

theorem incompleteNone (none : g.incomplete d i k = []) :
    ∀ n p, i ≤ n → n < k → g.definitions[n]? = some p → p.complete d = true := by
  intro n p above below phase
  have listed : p ∈ (g.definitions.take k).drop i := by
    refine List.mem_of_getElem? (i := n - i) ?_
    rw [List.getElem?_drop, show i + (n - i) = n by omega, List.getElem?_take_of_lt below, phase]
  have kept := List.filter_eq_nil_iff.mp (List.map_eq_nil_iff.mp none) p listed
  simpa using kept

inductive Move (g : PhaseGate) (d : Document) : Except GateFault PhaseGate → Prop where
  | refused (fault : GateFault) : Move g d (.error fault)
  | moved {target : String} {i k : Nat} (start : g.names.idxOf? g.current = some i)
      (goal : g.names.idxOf? target = some k)
      (passed : ∀ n p, i ≤ n → n < k → g.definitions[n]? = some p → p.complete d = true) :
      Move g d (.ok { g with current := target })

theorem jumpMove (g : PhaseGate) (d : Document) (target : String) : Move g d (g.jump d target) := by
  unfold jump
  split
  · exact .refused _
  · rename_i k goal
    split
    · exact .refused _
    · rename_i i start
      split
      · exact .refused _
      · rename_i clear
        refine .moved (indexFound start) (indexFound goal) fun n p above below => ?_
        refine incompleteNone ?_ n p above below
        simpa [show i < k by omega] using clear

theorem advanceMove (g : PhaseGate) (d : Document) : Move g d (g.advance d) := by
  unfold advance
  split
  · exact .refused _
  · split
    · exact .refused _
    · exact jumpMove g d _

theorem Move.passes {moved : PhaseGate} (move : g.Move d (.ok moved)) (definitions : g.definitions = d.kind.phases)
    (here : d.kind.place? g.current = some i) : moved.definitions = d.kind.phases ∧
      ∃ j, d.kind.place? moved.current = some j ∧ d.Passed i j := by
  have names : g.names = d.kind.phaseNames := by rw [PhaseGate.names, definitions, Kind.phaseNames]
  cases move with
  | @moved target start j from' goal passed =>
    rw [names, ← Kind.place?] at from' goal
    cases from'.symm.trans here
    rw [definitions] at passed
    exact ⟨definitions, j, goal, passed⟩

end PhaseGate

end SafetyCase
