import SafetyCase.Editor.Failure
/-! Making new cases, and the case that a fresh store is filled with. -/
namespace SafetyCase.Store

def startCase (s : Store) (kind : Kind) (title : String) : Except Failure Document × Store :=
  let stripped := Text.strip title
  if stripped = "" then (.error .blankTitle, s)
  else
    let (d, s) := s.createCase kind stripped
    (.ok d, s.note (.created d.id kind))

def demoTitle : String := "Warehouse pallet handling"

def demoStep : List (String × Value) :=
  [("activity", .data (.text "Unload pallets from truck")), ("equipment", .data (.list [.text "Forklift"]))]

def demoHazard : List (String × Value) :=
  [("label", .data (.text "Struck by forklift")),
    ("existing_controls", .data (.list [.text "Marked pedestrian walkways"]))]

def seed (s : Store) : Store :=
  if s.cases = [] then
    let (d, s) := s.createCase .riskAssessment demoTitle
    match s.createEntity d.id .step none none demoStep with
    | (.error _, s) => s
    | (.ok step, s) =>
      let (_, s) := s.createEntity d.id .hazard (some step.id) none demoHazard
      s.note (.seeded d.id)
  else s

end SafetyCase.Store
