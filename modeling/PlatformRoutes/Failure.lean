import PlatformRoutes.Fault
import PlatformRoutes.Number.Decimal

namespace PlatformRoutes

/-- The kinds of thing that are looked up by name. -/
inductive ResourceKind where
  | organization
  | space
  | domain
  | route
  | application
  deriving DecidableEq

namespace ResourceKind

def name : ResourceKind → String
  | organization => "organization"
  | space => "space"
  | domain => "domain"
  | route => "route"
  | application => "application"

def label : ResourceKind → String
  | organization => "Organization"
  | space => "Space"
  | domain => "Domain"
  | route => "Route"
  | application => "Application"

def all : List ResourceKind := [organization, space, domain, route, application]

def ofName? (s : String) : Option ResourceKind :=
  all.find? fun k => k.name == s

end ResourceKind

/-- A setting or an argument that makes no sense. -/
inductive BadArgument where
  | pageSize
  | pollInterval
  | timeout
  | noStatus
  | noSettings
  | unknownClient (name : String)
  | unreadable
  deriving DecidableEq

def BadArgument.message : BadArgument → String
  | pageSize => "page_size must be positive"
  | pollInterval => "poll_interval must not be negative"
  | timeout => "timeout must be positive"
  | noStatus => "at least one job status is required"
  | noSettings => "The http client requires an OperationsConfig"
  | unknownClient name => "Unknown platform client: " ++ name
  | unreadable => ""

/-- Why an operation failed, by cause. Durations have the type the clock counts in. -/
inductive Failure (τ : Type) where
  /-- A setting is missing, or an operation lacks its context. -/
  | configuration (message : String)
  | invalidSettings (faults : List Fault)
  | notFound (kind : ResourceKind) (name : String)
  | ambiguous (kind : ResourceKind) (name : String) (count : Int)
  | jobFailed (code : Int) (description errorCode : String)
  | pollTimeout (jobId : String) (timeout : τ)
  | platform (status code : Int) (description errorCode : String)
  /-- Deletions that failed, each with the id of its route. -/
  | orphans (failures : List (String × Failure τ))
  | unreachable (message : String)
  | noAnswer (message : String)
  | disconnected (message : String)
  | invalid (faults : List Fault)
  | badArgument (cause : BadArgument)
  /-- A value has another shape than the one it is used in. -/
  | misshapen
  | missingKey
  | wrongType
  | tooLarge
  | outOfRange
  | malformed
  | undecodable
  | unencodable
  | unusableAddress
  | closed
  | cancelled
  /-- More pages or polls than the caller allows for. -/
  | stalled

namespace Failure

/-- The failures an operation reports to its user; all others are faults of a program or a line. -/
def isReported : Failure τ → Bool
  | configuration _ | invalidSettings _ | notFound _ _ | ambiguous _ _ _ | jobFailed _ _ _
  | pollTimeout _ _ | platform _ _ _ _ | orphans _ => true
  | _ => false

/-- The failures of requests that never got an answer. -/
def isTransport : Failure τ → Bool
  | unreachable _ | noAnswer _ => true
  | _ => false

/-- The failures that one deletion among many may end in without stopping the others. -/
def isContained : Failure τ → Bool
  | jobFailed _ _ _ | pollTimeout _ _ | platform _ _ _ _ => true
  | _ => false

def jobMessage (code : Int) (description errorCode : String) : String :=
  if errorCode.isEmpty && code == 0 then description
  else errorCode ++ "(" ++ toString code ++ "): " ++ description

def platformMessage (status code : Int) (description errorCode : String) : String :=
  (if errorCode.isEmpty then "" else errorCode ++ "(" ++ toString code ++ "): ") ++
    (if description.isEmpty then "request failed" else description) ++
    " [HTTP " ++ toString status ++ "]"

/-- A route that failed again keeps its place and takes the later failure. -/
def record (failures : List (String × Failure τ)) (id : String) (f : Failure τ) :
    List (String × Failure τ) :=
  match failures with
  | [] => [(id, f)]
  | (i, g) :: rest => if i == id then (i, f) :: rest else (i, g) :: record rest id f

mutual
def message : Failure Float → String
  | configuration message => message
  | invalidSettings _ => "Invalid configuration"
  | notFound kind name => kind.label ++ " " ++ name ++ " does not exist"
  | ambiguous kind name count =>
    kind.label ++ " " ++ name ++ " is ambiguous (" ++ toString count ++ " matches)"
  | jobFailed code description errorCode => jobMessage code description errorCode
  | pollTimeout jobId timeout =>
    "Job " ++ jobId ++ " did not complete within " ++ Number.secondsText timeout ++ " seconds"
  | platform status code description errorCode =>
    platformMessage status code description errorCode
  | orphans failures => messages failures
  | unreachable message | noAnswer message | disconnected message => message
  | badArgument cause => cause.message
  | invalid _ | misshapen | missingKey | wrongType | tooLarge | outOfRange | malformed
  | undecodable | unencodable | unusableAddress | closed | cancelled | stalled => ""

def messages : List (String × Failure Float) → String
  | [] => ""
  | [(_, f)] => message f
  | (_, f) :: rest => message f ++ "; " ++ messages rest
end

end Failure

/-- What checking a value comes to as the outcome of an operation. -/
def Checked.toExcept : Checked α → Except (Failure τ) α
  | ok a => .ok a
  | faulty faults => .error (.invalid faults)
  | misshapen => .error .misshapen

end PlatformRoutes
