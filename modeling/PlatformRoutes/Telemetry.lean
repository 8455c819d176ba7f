import PlatformRoutes.Json.Value
import PlatformRoutes.Record.Domain
import PlatformRoutes.Record.Job
import PlatformRoutes.Record.Route

namespace PlatformRoutes

/-- One step of the poller or of an operation on routes. The attributes hold the ids it was about
and the host, path or domain it acted on. -/
structure Event where
  name : String
  attributes : Json.Fields

namespace Event

/-- The words that an attribute may not be called, as they say what is emitted and where to. -/
def reserved : List String := ["sink", "name"]

def new? (name : String) (attributes : Json.Fields) : Option Event :=
  if attributes.any fun a => reserved.contains a.1 then none else some ⟨name, attributes⟩

def jobPoll (jobId : String) (status : JobStatus) (attempt : Nat) : Event :=
  ⟨"job.poll", [("job_id", .text jobId), ("status", .text status.name), ("attempt", .int attempt)]⟩

def jobFinished (jobId : String) (attempts : Nat) : Event :=
  ⟨"job.finished", [("job_id", .text jobId), ("attempts", .int attempts)]⟩

def jobFailed (jobId : String) (attempts : Nat) : Event :=
  ⟨"job.failed", [("job_id", .text jobId), ("attempts", .int attempts)]⟩

def jobTimeout (jobId : String) (attempts : Nat) : Event :=
  ⟨"job.timeout", [("job_id", .text jobId), ("attempts", .int attempts)]⟩

def onRoute (name : String) (route : Route) : Event :=
  ⟨name, [("route_id", .text route.id), ("host", .text route.host), ("path", .text route.path)]⟩

def onRouteOf (name : String) (route : Route) (domain : Domain) : Event :=
  ⟨name, [("route_id", .text route.id), ("host", .text route.host), ("path", .text route.path),
    ("domain", .text domain.name)]⟩

def names (events : List Event) : List String := events.map (·.name)

/-- The attributes of the events of one name, in their order. -/
def named (events : List Event) (name : String) : List Json.Fields :=
  (events.filter fun e => e.name == name).map (·.attributes)

end Event

/-- A log that lets through what reaches a threshold. A threshold of zero stands for the level of
warnings. -/
structure EventLog where
  level : Int
  threshold : Int

def EventLog.warning : Int := 30

/-- Events of a level that is not positive are never logged. -/
def EventLog.passes (log : EventLog) : Bool :=
  0 < log.level && (if log.threshold == 0 then EventLog.warning else log.threshold) ≤ log.level

def EventLog.logged (log : EventLog) (events : List Event) : List (Int × Event) :=
  if log.passes then events.map fun e => (log.level, e) else []

end PlatformRoutes
