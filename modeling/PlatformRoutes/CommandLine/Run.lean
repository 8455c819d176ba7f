import PlatformRoutes.CommandLine.Invocation
import PlatformRoutes.Report
import PlatformRoutes.Settings.File

namespace PlatformRoutes.CommandLine

/-- How a command line ends: with texts for its user, with a page on its use, or with a failure
that it does not report. -/
inductive Ending (τ : Type) where
  | printed (status : Nat) (output errors : String)
  | usage (status : Nat) (asked : Bool)
  | escaped (failure : Failure τ)

/-- What a command line finds around it. -/
structure Surroundings (σ : Type) where
  environment : Environment
  /-- The bytes of a file by its path. -/
  fileBytes : String → Option ByteArray
  /-- The platform that some settings lead to. -/
  connect : Settings → Except (Failure Float) (World σ Float)

def loadSettings (around : Surroundings σ) (i : Invocation) :
    Except (Failure Float) Settings :=
  let override (name : String) (value : Option String) : String × Datum :=
    (name, (value.map .text).getD .null)
  Settings.load (i.config.map fun path => ⟨path, around.fileBytes path⟩) around.environment
    [override "api_url" i.apiUrl, override "organization" i.organization,
      override "space" i.space]

variable {σ : Type} [Platform σ Float]

/-- Targets what the settings name. -/
def target (s : Settings) : Run σ Float (Orchestrator Float) := do
  match s.organization with
  | none => throw (.configuration "No organization targeted; pass --organization")
  | some organization =>
    let poller ← ofOutcome (Poller.new? s.pollInterval s.pollTimeout)
    Orchestrator.forNames organization s.space poller

/-- Carries a command out and tells what came of it. -/
def perform (o : Orchestrator Float) : RoutesCommand → Run σ Float String
  | .list level json => do
    let records ← o.list level
    return if json then Report.json records else Report.table records
  | .check r => do
    return if ← o.check r.domain r.hostname r.path then "Route exists" else "Route does not exist"
  | .create r space => do
    let route ← o.create r.domain space r.hostname r.path
    return "Route " ++ route.id ++ " is ready"
  | .map application r => do
    let _ ← o.map application r.domain r.hostname r.path
    return "Mapped route to " ++ application
  | .unmap application r => do
    o.unmap application r.domain r.hostname r.path
    return "Unmapped route from " ++ application
  | .delete r => do
    o.delete r.domain r.hostname r.path
    return "Route deleted"
  | .deleteOrphaned => do
    let deleted ← o.deleteOrphanedRoutes
    return "Deleted " ++ toString deleted.length ++ " orphaned route(s)"

/-- Failures that concern the user are told in one line. -/
def ending : Except (Failure Float) String → Ending Float
  | .ok text => .printed 0 (text ++ "\n") ""
  | .error f =>
    if f.isReported || f.isTransport then .printed 1 "" ("Error: " ++ f.message ++ "\n")
    else .escaped f

/-- Carries a command out. The world it left behind is there if one was reached. -/
def runRoutes (around : Surroundings σ) (i : Invocation) (command : RoutesCommand) :
    Ending Float × Option (World σ Float) :=
  match loadSettings around i with
  | .error f => (ending (.error f), none)
  | .ok settings =>
    match around.connect settings with
    | .error f => (ending (.error f), none)
    | .ok world =>
      let operation : Run σ Float String := do perform (← target settings) command
      let (outcome, world) := operation.run world
      (ending outcome, some world)

/-- Without a command on routes the use is shown. -/
def run (around : Surroundings σ) (args : List String) : Ending Float × Option (World σ Float) :=
  match parse args with
  | .error .help => (.usage 0 true, none)
  | .error .misuse => (.usage 2 false, none)
  | .ok i =>
    match i.command with
    | .routes (some command) => runRoutes around i command
    | .routes none | .none => (.usage 1 true, none)

end PlatformRoutes.CommandLine
