import PlatformRoutes.CommandLine.Grammar
import PlatformRoutes.Orchestrator

namespace PlatformRoutes.CommandLine

/-- A route as it is named on the command line. -/
structure NamedRoute where
  domain : String
  hostname : Option String
  path : Option String
  deriving DecidableEq

inductive RoutesCommand where
  | list (level : Level) (json : Bool)
  | check (route : NamedRoute)
  | create (route : NamedRoute) (space : String)
  | map (application : String) (route : NamedRoute)
  | unmap (application : String) (route : NamedRoute)
  | delete (route : NamedRoute)
  | deleteOrphaned
  deriving DecidableEq

/-- A command line that follows the rules. `routes` may stand without a command of its own. -/
inductive Command where
  | none
  | routes (command : Option RoutesCommand)
  deriving DecidableEq

structure Invocation where
  config : Option String := none
  apiUrl : Option String := none
  organization : Option String := none
  space : Option String := none
  verbose : Bool := false
  command : Command := .none
  deriving DecidableEq

/-- The words of a command that have been read so far. -/
structure Draft where
  application : String := ""
  domain : String := ""
  space : String := ""
  hostname : Option String := none
  path : Option String := none
  level : Level := .space
  json : Bool := false

def Draft.route (d : Draft) : NamedRoute := ⟨d.domain, d.hostname, d.path⟩

def help : Switch α := ⟨["-h", "--help"], .help⟩

def taking (spellings : List String) (set : String → α → α) : Switch α :=
  ⟨spellings, .value fun v a => some (set v a)⟩

def routeSwitches : List (Switch Draft) := [
  help,
  taking ["--hostname", "-n"] fun v d => { d with hostname := some v },
  taking ["--path"] fun v d => { d with path := some v }]

def listSwitches : List (Switch Draft) := [
  help,
  ⟨["--level"], .value fun v d => (Level.ofName? v).map fun level => { d with level }⟩,
  ⟨["--json"], .flag fun d => { d with json := true }⟩]

def domainOperand (v : String) (d : Draft) : Draft := { d with domain := v }

def spaceOperand (v : String) (d : Draft) : Draft := { d with space := v }

def applicationOperand (v : String) (d : Draft) : Draft := { d with application := v }

/-- How the words after a command are read, and what they come to. -/
structure CommandForm where
  name : String
  grammar : Grammar Draft
  finish : Draft → RoutesCommand

def commandForms : List CommandForm := [
  ⟨"list", { switches := listSwitches }, fun d => .list d.level d.json⟩,
  ⟨"check", { switches := routeSwitches, operands := [domainOperand] }, fun d => .check d.route⟩,
  ⟨"create", { switches := routeSwitches, operands := [domainOperand, spaceOperand] },
    fun d => .create d.route d.space⟩,
  ⟨"map", { switches := routeSwitches, operands := [applicationOperand, domainOperand] },
    fun d => .map d.application d.route⟩,
  ⟨"unmap", { switches := routeSwitches, operands := [applicationOperand, domainOperand] },
    fun d => .unmap d.application d.route⟩,
  ⟨"delete", { switches := routeSwitches, operands := [domainOperand] }, fun d => .delete d.route⟩,
  ⟨"delete-orphaned", { switches := [help] }, fun _ => .deleteOrphaned⟩]

def readRoutesCommand (name : String) (args : List String) (_ : Option RoutesCommand) :
    Except Stop (Option RoutesCommand) :=
  match commandForms.find? fun f => f.name == name with
  | none => .error .misuse
  | some form => do return some (form.finish (← form.grammar.parse args {}))

def routesGrammar : Grammar (Option RoutesCommand) :=
  { switches := [help], command := some readRoutesCommand }

def readCommand (name : String) (args : List String) (i : Invocation) : Except Stop Invocation :=
  if name == "routes" then do
    return { i with command := .routes (← routesGrammar.parse args none) }
  else .error .misuse

/-- The switches that stand before the command. -/
def globalSwitches : List (Switch Invocation) := [
  help,
  taking ["--config"] fun v i => { i with config := some v },
  taking ["--api-url"] fun v i => { i with apiUrl := some v },
  taking ["--organization", "-o"] fun v i => { i with organization := some v },
  taking ["--space", "-s"] fun v i => { i with space := some v },
  ⟨["--verbose", "-v"], .flag fun i => { i with verbose := true }⟩]

def grammar : Grammar Invocation :=
  { switches := globalSwitches, command := some readCommand }

def parse (args : List String) : Except Stop Invocation := grammar.parse args {}

end PlatformRoutes.CommandLine
