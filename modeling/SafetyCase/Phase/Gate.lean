import SafetyCase.Phase.Definition
import SafetyCase.Json.Literal
/-! The gate through an ordered list of phases. Going back is always allowed; going forward needs every
phase from the current one up to the target to be complete. A gate may be set to a name it does not
know; then only a jump's own target is looked up before that is noticed. -/
namespace SafetyCase

inductive GateFault where
  | noPhases
  | unknownPhase (name : String) (known : List String)
  | finalPhase (name : String)
  | blocked (target : String) (blocking : List String)
  deriving DecidableEq

def GateFault.message : GateFault → String
  | noPhases => "A phase gate needs at least one phase."
  | unknownPhase name known =>
    "Unknown phase " ++ Text.quoted name ++ "; expected one of " ++ Json.textsLiteral known ++ "."
  | finalPhase name => name ++ " is the final phase."
  | blocked target blocking =>
    "Cannot move to " ++ target ++ ": incomplete phase(s) " ++ ", ".intercalate blocking ++ "."

structure PhaseGate where
  definitions : List PhaseDefinition
  current : String

structure PhaseState where
  name : String
  label : String
  description : String
  complete : Bool
  current : Bool
  deriving DecidableEq

namespace PhaseGate

def names (g : PhaseGate) : List String := g.definitions.map (·.name)

def index (g : PhaseGate) (name : String) : Except GateFault Nat :=
  match g.names.idxOf? name with
  | some i => .ok i
  | none => .error (.unknownPhase name g.names)

def start (definitions : List PhaseDefinition) (current : String) : Except GateFault PhaseGate :=
  match definitions with
  | [] => .error .noPhases
  | first :: _ =>
    let g : PhaseGate := ⟨definitions, if current = "" then first.name else current⟩
    match g.index g.current with
    | .ok _ => .ok g
    | .error fault => .error fault

def forDocument (d : Document) : Except GateFault PhaseGate := start d.kind.phases d.phase

def isTerminal (g : PhaseGate) : Bool := g.names.getLast? = some g.current

def isComplete (g : PhaseGate) (d : Document) (name : String) : Except GateFault Bool :=
  match g.index (if name = "" then g.current else name) with
  | .ok i => .ok ((g.definitions[i]?.map fun p => p.complete d).getD false)
  | .error fault => .error fault

def incomplete (g : PhaseGate) (d : Document) (i k : Nat) : List String :=
  (((g.definitions.take k).drop i).filter fun p => !p.complete d).map (·.name)

def blocking (g : PhaseGate) (d : Document) (target : String) : Except GateFault (List String) :=
  match g.index g.current with
  | .error fault => .error fault
  | .ok i =>
    match g.index target with
    | .error fault => .error fault
    | .ok k => .ok (g.incomplete d i k)

def jump (g : PhaseGate) (d : Document) (target : String) : Except GateFault PhaseGate :=
  match g.index target with
  | .error fault => .error fault
  | .ok k =>
    match g.index g.current with
    | .error fault => .error fault
    | .ok i =>
      if i < k && g.incomplete d i k ≠ [] then .error (.blocked target (g.incomplete d i k))
      else .ok { g with current := target }

def advance (g : PhaseGate) (d : Document) : Except GateFault PhaseGate :=
  if g.isTerminal then .error (.finalPhase g.current)
  else match g.index g.current with
    | .error fault => .error fault
    | .ok i => g.jump d ((g.names[i + 1]?).getD "")

def canAdvance (g : PhaseGate) (d : Document) : Except GateFault Bool :=
  if g.isTerminal then .ok false else g.isComplete d ""

def states (g : PhaseGate) (d : Document) : List PhaseState :=
  g.definitions.map fun p => ⟨p.name, p.label, p.description, p.complete d, p.name = g.current⟩

end PhaseGate
end SafetyCase
