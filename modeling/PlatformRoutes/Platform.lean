import PlatformRoutes.Failure
import PlatformRoutes.Record.Job
import PlatformRoutes.Record.Page
import PlatformRoutes.Resource
import PlatformRoutes.Telemetry

namespace PlatformRoutes

/-- An action on a state that may fail. What it did to the state before it failed stays done. -/
abbrev Act (σ τ α : Type) := ExceptT (Failure τ) (StateM σ) α

/-- An outcome that does not depend on the state. -/
def ofOutcome (outcome : Except (Failure τ) α) : Act σ τ α := fun s => (outcome, s)

/-- The outcome of an action as a value; the attempt itself does not fail. -/
def attempt (act : Act σ τ α) : Act σ τ (Except (Failure τ) α) := fun s =>
  let (r, s) := act.run s
  (.ok r, s)

/-- The requests that every platform answers. `σ` is all that the platform remembers, and `τ` is what
its failures count durations in. -/
class Platform (σ : Type) (τ : outParam Type) where
  listResources : (resource : Resource) → Filters → (page : Int) → Act σ τ (Page resource.Item)
  createRoute : (domainId spaceId : String) → (host path : Option String) → Act σ τ Route
  /-- Starts the deletion and answers with the job that carries it out. -/
  deleteRoute : (routeId : String) → Act σ τ Job
  getJob : (jobId : String) → Act σ τ Job
  associateRoute : (applicationId routeId : String) → Act σ τ Unit
  removeRoute : (applicationId routeId : String) → Act σ τ Unit

/-- A platform together with the clock, the record of sleeps and events, and the patience with which
pages and polls are counted. -/
structure World (σ τ : Type) where
  platform : σ
  clock : τ
  /-- The time that each look at a job takes. -/
  fetchCost : τ
  /-- The sleep, counted from one, that is cancelled. -/
  cancelAt : Option Nat
  sleeps : List τ
  events : List Event
  /-- How many pages of a listing or polls of a job are asked for at most. -/
  patience : Nat

abbrev Run (σ τ α : Type) := Act (World σ τ) τ α

namespace Run

variable {σ τ α : Type}

/-- An action of the platform alone. -/
def onPlatform (act : Act σ τ α) : Run σ τ α := fun w =>
  let (r, s) := act.run w.platform
  (r, { w with platform := s })

def emit (event : Event) : Run σ τ Unit :=
  modify fun w => { w with events := w.events ++ [event] }

def fail (f : Failure τ) : Run σ τ α := throw f

/-- Sleeping is recorded even if it is cancelled; the clock only moves if it is not. -/
def sleep [Add τ] (duration : τ) : Run σ τ Unit := do
  modify fun w => { w with sleeps := w.sleeps ++ [duration] }
  let w ← get
  if w.cancelAt == some w.sleeps.length then throw .cancelled
  set { w with clock := w.clock + duration }

variable [Platform σ τ]

def listResources (resource : Resource) (filters : Filters) (page : Int) :
    Run σ τ (Page resource.Item) :=
  onPlatform (Platform.listResources resource filters page)

def createRoute (domainId spaceId : String) (host path : Option String) : Run σ τ Route :=
  onPlatform (Platform.createRoute domainId spaceId host path)

def deleteRoute (routeId : String) : Run σ τ Job :=
  onPlatform (Platform.deleteRoute routeId)

/-- A look at a job takes its time before it is answered. -/
def getJob [Add τ] (jobId : String) : Run σ τ Job := do
  modify fun w => { w with clock := w.clock + w.fetchCost }
  onPlatform (Platform.getJob jobId)

def associateRoute (applicationId routeId : String) : Run σ τ Unit :=
  onPlatform (Platform.associateRoute applicationId routeId)

def removeRoute (applicationId routeId : String) : Run σ τ Unit :=
  onPlatform (Platform.removeRoute applicationId routeId)

end Run

end PlatformRoutes
