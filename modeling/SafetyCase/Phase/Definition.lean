import SafetyCase.Document.Basic
/-! The phases of each document kind, in order, and what completes each of them. A phase never looks at
the phase the document is in. -/
namespace SafetyCase

structure PhaseDefinition where
  name : String
  label : String
  description : String
  complete : Document → Bool

namespace Document

def proposals (d : Document) (hazard : Entity) : List Entity := d.controls.filter (·.parent = some hazard.id)

def actionsFor (d : Document) (e : Entity) : List Entity := d.actions.filter (·.parent = some e.id)

def hasProposals (d : Document) (hazard : Entity) : Bool := !(d.proposals hazard).isEmpty

def hasActions (d : Document) (e : Entity) : Bool := !(d.actionsFor e).isEmpty

end Document

namespace Entity

def band? (e : Entity) (slot : Attribute) : Option Band := (e.rating? slot).bind (·.band)

def tolerable (e : Entity) : Bool :=
  match e.band? .baseline with
  | some .minor => true
  | some .negligible => true
  | _ => false

end Entity

namespace PhaseDefinition

def always (_ : Document) : Bool := true

def hasSteps (d : Document) : Bool := !d.steps.isEmpty

def hazardsHaveExistingControls (d : Document) : Bool :=
  !d.hazards.isEmpty && d.hazards.all (·.holds .existingControls)

def hazardsRated (d : Document) : Bool := d.hazards.all fun h => (h.band? .baseline).isSome

def seriousHazardsHaveProposals (d : Document) : Bool :=
  (d.hazards.filter (!·.tolerable)).all d.hasProposals

def residualRated (d : Document) : Bool :=
  (d.hazards.filter d.hasProposals).all fun h => (h.band? .residual).isSome

def proposalsHaveActions (d : Document) : Bool := (d.hazards.filter d.hasProposals).all d.hasActions

def stepsHaveHazards (d : Document) : Bool :=
  !d.steps.isEmpty && d.steps.all fun s => d.hazards.any (·.parent = some s.id)

def hazardsHaveControls (d : Document) : Bool := d.hazards.all d.hasProposals

def hasEvents (d : Document) : Bool := !d.timelineEvents.isEmpty

def hasCauses (d : Document) : Bool := !d.causes.isEmpty

def rootCauses (d : Document) : List Entity :=
  let roots := d.causes.filter (·.holds .isRootCause)
  if roots.isEmpty then d.causes else roots

def rootCausesHaveActions (d : Document) : Bool := (rootCauses d).all d.hasActions

end PhaseDefinition

namespace Kind
open PhaseDefinition

def phases : Kind → List PhaseDefinition
  | riskAssessment =>
    [⟨"PROCESS_STEPS", "Process Description",
        "Describe the work process: activities, equipment, and substances involved.", hasSteps⟩,
      ⟨"HAZARD_IDENTIFICATION", "Hazard Identification",
        "Identify hazards for each step, including what can go wrong and existing controls.",
        hazardsHaveExistingControls⟩,
      ⟨"RISK_RATING", "Baseline Risk Assessment",
        "Rate current risk based on adherence to existing controls.", hazardsRated⟩,
      ⟨"CONTROL_DISCUSSION", "Controls",
        "Propose additional controls for every hazard above minor risk.", seriousHazardsHaveProposals⟩,
      ⟨"RESIDUAL_RISK", "Residual Risk",
        "Rate the expected risk once the proposed controls are in place.", residualRated⟩,
      ⟨"ACTIONS", "Action Plan",
        "Structure proposed controls into actionable tasks with owners and deadlines.", proposalsHaveActions⟩,
      ⟨"COMPLETE", "Complete", "Assessment complete.", always⟩]
  | jobHazardAnalysis =>
    [⟨"STEPS", "Job Steps", "Break the job into steps.", hasSteps⟩,
      ⟨"HAZARDS", "Hazards", "Identify hazards for every step.", stepsHaveHazards⟩,
      ⟨"CONTROLS", "Controls", "Define controls for every hazard.", hazardsHaveControls⟩,
      ⟨"REVIEW", "Review", "Review and sign off.", always⟩,
      ⟨"COMPLETE", "Complete", "Analysis complete.", always⟩]
  | incident =>
    [⟨"TIMELINE", "Timeline", "Reconstruct what happened.", hasEvents⟩,
      ⟨"CAUSES", "Causes", "Identify contributing and root causes.", hasCauses⟩,
      ⟨"ACTIONS", "Corrective Actions", "Assign corrective actions to the root causes.", rootCausesHaveActions⟩,
      ⟨"REVIEW", "Review", "Review the investigation.", always⟩,
      ⟨"COMPLETE", "Complete", "Investigation complete.", always⟩]

def phaseNames (k : Kind) : List String := k.phases.map (·.name)

def firstPhase (k : Kind) : String := (k.phaseNames.head?).getD ""

def residualPhase : String := "RESIDUAL_RISK"

theorem phaseNamesDistinct (k : Kind) : k.phaseNames.Nodup := by cases k <;> decide

theorem firstPhaseListed (k : Kind) : k.firstPhase ∈ k.phaseNames := by cases k <;> decide

end Kind
end SafetyCase
