import PlatformRoutes.CommandLine.Run
import PlatformRoutes.Connection

namespace PlatformRoutes.CommandLine

def usageText : String := "\n".intercalate [
  "usage: platform-routes [-h] [--config FILE] [--api-url URL] [--organization NAME] [--space NAME]",
  "                       [--verbose] routes COMMAND ...",
  "",
  "commands:",
  "  list [--level organization|space] [--json]",
  "  check DOMAIN [--hostname HOST] [--path PATH]",
  "  create DOMAIN SPACE [--hostname HOST] [--path PATH]",
  "  map APPLICATION DOMAIN [--hostname HOST] [--path PATH]",
  "  unmap APPLICATION DOMAIN [--hostname HOST] [--path PATH]",
  "  delete DOMAIN [--hostname HOST] [--path PATH]",
  "  delete-orphaned"]

/-- The variables that stand for settings, as far as they are set. -/
def settingVariables : IO Environment :=
  Setting.all.filterMapM fun k => do
    let name := k.envName.toUpper
    return (← IO.getEnv name).map fun value => (name, value)

def bytesAt (path : String) : IO (Option ByteArray) := do
  try return some (← IO.FS.readBinFile path)
  catch _ => return none

/-- A world whose platform no network leads to. -/
def unreachedWorld (s : Settings) : Except (Failure Float) (World (Http.Client Float) Float) := do
  let platform ← Http.Client.ofSettings s [] [] Connection.refused
  return {
    platform, clock := 0, fetchCost := 0, cancelAt := none, sleeps := [], events := [],
    patience := 1000000 }

def configPath? (args : List String) : Option String :=
  match parse args with
  | .ok i => i.config
  | .error _ => none

def present (ending : Ending Float) : IO UInt32 := do
  match ending with
  | .printed status output errors =>
    IO.print output
    IO.eprint errors
    return UInt32.ofNat status
  | .usage status asked =>
    if asked then IO.println usageText else IO.eprintln usageText
    return UInt32.ofNat status
  | .escaped f =>
    IO.eprintln f.message
    return 1

def runProgram (args : List String) : IO UInt32 := do
  let environment ← settingVariables
  let bytes ← (configPath? args).bindM bytesAt
  present (run ⟨environment, fun _ => bytes, unreachedWorld⟩ args).1

end PlatformRoutes.CommandLine

def main (args : List String) : IO UInt32 := PlatformRoutes.CommandLine.runProgram args
