import PlatformRoutes.Store.Listing
import PlatformRoutes.Store.Seeding

namespace PlatformRoutes.Store

variable {τ : Type}

/-- Every request is noted down before it is carried out. Between the two it waits once, where it can
be interrupted; that wait is in `WaitingStore`. -/
def log (request : Request) : Act (Store τ) τ Unit :=
  modify fun s => { s with calls := s.calls ++ [request] }

def invalidDomain : Failure τ := .platform 400 130002 "The domain is invalid" "CF-DomainInvalid"

def hostTaken : Failure τ := .platform 400 210003 "The host is taken" "CF-RouteHostTaken"

def routeNotFound : Failure τ :=
  .platform 404 210002 "The route could not be found" "CF-RouteNotFound"

def unknownRequest : Failure τ := .platform 404 10000 "Unknown request" "CF-NotFound"

def listResources (resource : Resource) (filters : Filters) (page : Int) :
    Act (Store τ) τ (Page resource.Item) := do
  log (.listResources resource filters page)
  ofOutcome ((← get).listPage resource filters page)

/-- A route is refused on an unknown domain, and where one of its key is stored already. -/
def createRoute (domainId spaceId : String) (host path : Option String) :
    Act (Store τ) τ Route := do
  log (.createRoute domainId spaceId host path)
  let s ← get
  if !s.domains.contains domainId then throw invalidDomain
  if s.routes.items.any fun r => r.key == .of domainId host path then throw hostTaken
  addRoute domainId spaceId host path none

/-- Without a script the job is finished at the first look. A script is used up. -/
def deleteTrack (s : Store τ) (jobId routeId : String) : JobTrack :=
  match s.deleteScripts.find? routeId with
  | some script =>
    ⟨jobId, { script.first with id := jobId },
      script.later.map fun j => { j with id := jobId }, some routeId⟩
  | none => ⟨jobId, ⟨jobId, .finished, none⟩, [], some routeId⟩

def deleteRoute (routeId : String) : Act (Store τ) τ Job := do
  log (.deleteRoute routeId)
  if !(← get).routes.contains routeId then throw routeNotFound
  let jobId ← mint "job"
  modify fun s =>
    { s with
      jobs := s.jobs.put (s.deleteTrack jobId routeId)
      deleteScripts := s.deleteScripts.erase routeId }
  return ⟨jobId, .queued, none⟩

/-- Takes the route and its associations away. -/
def dropRoute (s : Store τ) (routeId : String) : Store τ :=
  { s with
    routes := s.routes.erase routeId
    associations := s.associations.filter fun a => a.2 != routeId }

/-- Moves a job on by one answer. The answer that it has finished takes its route away. -/
def look (s : Store τ) (track : JobTrack) : Store τ :=
  let moved := track.advance
  if track.current.status = .finished then
    let s := { s with jobs := s.jobs.put { moved with route := none } }
    match track.route with
    | some routeId => s.dropRoute routeId
    | none => s
  else { s with jobs := s.jobs.put moved }

def getJob (jobId : String) : Act (Store τ) τ Job := do
  log (.getJob jobId)
  match (← get).jobs.find? jobId with
  | none => throw unknownRequest
  | some track =>
    modify fun s => s.look track
    return track.current

def associateRoute (applicationId routeId : String) : Act (Store τ) τ Unit := do
  log (.associateRoute applicationId routeId)
  modify fun s =>
    if s.associations.contains (applicationId, routeId) then s
    else { s with associations := s.associations ++ [(applicationId, routeId)] }

def removeRoute (applicationId routeId : String) : Act (Store τ) τ Unit := do
  log (.removeRoute applicationId routeId)
  modify fun s => { s with associations := s.associations.erase (applicationId, routeId) }

instance : Platform (Store τ) τ where
  listResources := listResources
  createRoute := createRoute
  deleteRoute := deleteRoute
  getJob := getJob
  associateRoute := associateRoute
  removeRoute := removeRoute

end PlatformRoutes.Store
