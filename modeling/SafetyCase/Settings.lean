import SafetyCase.Intake.Read
/-! Settings, read from the environment. A variable belongs to a setting by its name after the prefix, in any
case; of several spellings the last one given counts. -/
namespace SafetyCase
open Intake (Checked)

structure Settings where
  environment : String := "development"
  logLevel : String := "INFO"
  logDir : Option String := none
  logSerialize : Bool := false
  host : String := "127.0.0.1"
  portNumber : Int := 8000
  reload : Bool := false
  corsOrigins : String := "*"
  maxBatchCommands : Option Int := some 50
  seedDemoCase : Bool := true
  deriving DecidableEq

namespace Settings

def lower (s : String) : String := String.ofList (Text.lowerAscii s.toList)

def variableStart : List Char := "safecase_".toList

def settingOf? (name : String) : Option String :=
  let cs := (lower name).toList
  if variableStart.isPrefixOf cs then some (String.ofList (cs.drop variableStart.length)) else none

def given (environment : List (String × String)) : List (String × Json) :=
  (environment.filterMap fun v => (settingOf? v.1).map fun name => (name, Json.text v.2)).reverse

def setting (name : String) (given : List (String × Json)) (default : α) (read : Json → Checked α) : Checked α :=
  Intake.optional ⟨name, name⟩ given default read

def upperText (j : Json) : Checked String :=
  (Intake.text j).map fun s => String.ofList (Text.upper s.toList)

def ofEnvironment (environment : List (String × String)) : Checked Settings :=
  let g := given environment
  let d : Settings := {}
  let general := Checked.both (fun e l => { d with environment := e, logLevel := l })
    (setting "environment" g d.environment Intake.text) (setting "log_level" g d.logLevel upperText)
  let logs := Checked.both (fun s v => { s with logDir := v }) general
    (setting "log_dir" g d.logDir fun j => (Intake.text j).map some)
  let logs := Checked.both (fun s v => { s with logSerialize := v }) logs
    (setting "log_serialize" g d.logSerialize Intake.flag)
  let server := Checked.both (fun s v => { s with host := v }) logs (setting "host" g d.host Intake.text)
  let server := Checked.both (fun s v => { s with portNumber := v }) server (setting "port" g d.portNumber Intake.int)
  let server := Checked.both (fun s v => { s with reload := v }) server (setting "reload" g d.reload Intake.flag)
  let server := Checked.both (fun s v => { s with corsOrigins := v }) server
    (setting "cors_origins" g d.corsOrigins Intake.text)
  let engine := Checked.both (fun s v => { s with maxBatchCommands := v }) server
    (setting "max_batch_commands" g d.maxBatchCommands fun j => (Intake.int j).map some)
  Checked.both (fun s v => { s with seedDemoCase := v }) engine
    (setting "seed_demo_case" g d.seedDemoCase Intake.flag)

def corsOriginList (s : Settings) : List String :=
  ((s.corsOrigins.toList.splitOn ',').map fun cs => Text.trim Text.isBlank cs).filter (· ≠ []) |>.map String.ofList

def isDevelopment (s : Settings) : Bool := lower s.environment = "development"

def toJson (s : Settings) : Json :=
  .object [("environment", .text s.environment), ("log_level", .text s.logLevel),
    ("log_dir", .ofOption .text s.logDir), ("log_serialize", .bool s.logSerialize), ("host", .text s.host),
    ("port", .int s.portNumber), ("reload", .bool s.reload), ("cors_origins", .text s.corsOrigins),
    ("max_batch_commands", .ofOption .int s.maxBatchCommands), ("seed_demo_case", .bool s.seedDemoCase),
    ("cors_origin_list", .list (s.corsOriginList.map .text)), ("is_development", .bool s.isDevelopment)]

end Settings
end SafetyCase
