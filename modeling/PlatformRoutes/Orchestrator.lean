import PlatformRoutes.Poller
import PlatformRoutes.Record.RouteRecord
import PlatformRoutes.Resolver

namespace PlatformRoutes

/-- Operations on routes within one organization and, where one is targeted, one of its spaces. -/
structure Orchestrator (τ : Type) where
  organizationId : String
  spaceId : Option String
  poller : Poller τ

/-- Which routes are listed: those of the organization, or those of the space. -/
inductive Level where
  | organization
  | space
  deriving DecidableEq

def Level.ofName? : String → Option Level
  | "organization" => some .organization
  | "space" => some .space
  | _ => none

namespace Orchestrator

variable {σ τ : Type}

def noSpace : Failure τ := .configuration "No space targeted; this operation requires a space"

/-- The space an operation requires; an empty id is none. -/
def requireSpace (o : Orchestrator τ) : Run σ τ String :=
  match o.spaceId with
  | none => throw noSpace
  | some id => if id.isEmpty then throw noSpace else pure id

variable [Platform σ τ]

/-- Targets an organization and perhaps a space by their names; an empty name of a space is none. -/
def forNames (organization : String) (space : Option String) (poller : Poller τ) :
    Run σ τ (Orchestrator τ) := do
  let org ← Run.resolveOrganization organization
  match space with
  | none => return ⟨org.id, none, poller⟩
  | some name =>
    if name.isEmpty then return ⟨org.id, none, poller⟩
    return ⟨org.id, some (← Run.resolveSpace org.id name).id, poller⟩

def isNotFound : Failure τ → Bool
  | .notFound _ _ => true
  | _ => false

/-- Whether the route exists; on an unknown domain there is none. -/
def check (o : Orchestrator τ) (domain : String) (host path : Option String) : Run σ τ Bool := do
  match ← attempt (Run.resolveDomain o.organizationId domain) with
  | .error f => if isNotFound f then return false else throw f
  | .ok resolved => return (← Run.findRoute resolved host path).isSome

/-- The route, created in the space if there is none. -/
def create (o : Orchestrator τ) (domain space : String) (host path : Option String) :
    Run σ τ Route := do
  let spaceRef ← Run.resolveSpace o.organizationId space
  let resolved ← Run.resolveDomain o.organizationId domain
  let route ← Run.resolveOrCreateRoute resolved host path spaceRef.id
  Run.emit (.onRouteOf "route.created" route resolved)
  return route

/-- Sends a route's traffic to an application; the route is created if there is none. -/
def map (o : Orchestrator τ) (application domain : String) (host path : Option String) :
    Run σ τ Route := do
  let spaceId ← o.requireSpace
  let app ← Run.resolveApplication spaceId application
  let resolved ← Run.resolveDomain o.organizationId domain
  let route ← Run.resolveOrCreateRoute resolved host path spaceId
  Run.associateRoute app.id route.id
  Run.emit (.onRouteOf "route.mapped" route resolved)
  return route

def unmap (o : Orchestrator τ) (application domain : String) (host path : Option String) :
    Run σ τ Unit := do
  let spaceId ← o.requireSpace
  let app ← Run.resolveApplication spaceId application
  let resolved ← Run.resolveDomain o.organizationId domain
  let route ← Run.resolveRoute resolved host path
  Run.removeRoute app.id route.id
  Run.emit (.onRouteOf "route.unmapped" route resolved)

/-- The name of each listed thing under its id; of two of one id the later counts. -/
abbrev NameTable := List (String × String)

/-- The name under an id, or nothing. -/
def nameOf (table : NameTable) (id : String) : String :=
  match table.reverse.find? fun e => e.1 == id with
  | some e => e.2
  | none => ""

/-- The names that every listed route is joined with. -/
structure Directory where
  domains : NameTable
  spaces : NameTable

/-- Loads all names before any route: the private domains, the shared ones, then the spaces. -/
def directory (o : Orchestrator τ) : Run σ τ Directory := do
  let owned ← Run.listAll .organizationPrivateDomains [(.organizationId, o.organizationId)]
  let shared ← Run.listAll .sharedDomains []
  let spaces ← Run.listAll .organizationSpaces [(.organizationId, o.organizationId)]
  let domainName (d : Domain) := (d.id, d.name)
  let spaceName (s : Ref) := (s.id, s.name)
  return ⟨owned.map domainName ++ shared.map domainName, spaces.map spaceName⟩

/-- A route with the names of its domain, its space and its applications. -/
def join (names : Directory) (route : Route) : Run σ τ RouteRecord := do
  let applications ← Run.listAll .routeApplications [(.routeId, route.id)]
  return {
    id := route.id
    host := route.host
    path := route.path
    domain := nameOf names.domains route.domainId
    space := nameOf names.spaces route.spaceId
    applications := applications.map Ref.name
    serviceInstanceId := route.serviceInstanceId }

/-- The routes of a level, as they are fetched page by page. -/
def routePages (o : Orchestrator τ) : Level → Run σ τ (Fetch (World σ τ) τ Route)
  | .space => do
    let spaceId ← o.requireSpace
    return Run.pagesOf .spaceRoutes [(.spaceId, spaceId)]
  | .organization => return Run.pagesOf .routes [(.organizationId, o.organizationId)]

/-- Every route of a level, joined with its names. The next page of routes is asked for once all
routes of the page before have been joined. -/
def list (o : Orchestrator τ) (level : Level) : Run σ τ (List RouteRecord) := do
  let fetch ← o.routePages level
  let names ← o.directory
  Paging.traverse fetch (join names) (← get).patience 1

/-- A listing of routes that is taken one by one. It asks for nothing before the first record. -/
inductive Listing where
  | fresh (level : Level)
  | joined (level : Level) (names : Directory) (cursor : Cursor Route)
  | done

/-- The next record and what is left after it. -/
def Listing.pull (o : Orchestrator τ) : Listing → Run σ τ (Option RouteRecord × Listing)
  | .done => return (none, .done)
  | .fresh level => do
    let _ ← o.routePages (σ := σ) level
    let names ← o.directory
    step level names .start
  | .joined level names cursor => step level names cursor
where
  step (level : Level) (names : Directory) (cursor : Cursor Route) :
      Run σ τ (Option RouteRecord × Listing) := do
    let fetch ← o.routePages level
    match ← cursor.pull fetch (← get).patience with
    | none => return (none, .done)
    | some (route, cursor) => return (some (← join names route), .joined level names cursor)

variable [Add τ] [Sub τ] [OfNat τ 0] [LE τ] [LT τ] [DecidableLE τ] [DecidableLT τ]

/-- Deletes a route and waits until it is gone. -/
def deleteRoute (o : Orchestrator τ) (route : Route) : Run σ τ Unit := do
  let job ← Run.deleteRoute route.id
  let _ ← o.poller.awaitJob job
  Run.emit (.onRoute "route.deleted" route)

def delete (o : Orchestrator τ) (domain : String) (host path : Option String) :
    Run σ τ Unit := do
  let resolved ← Run.resolveDomain o.organizationId domain
  let route ← Run.resolveRoute resolved host path
  o.deleteRoute route

/-- Deletes a route that no application uses; says whether it did. -/
def deleteUnused (o : Orchestrator τ) (route : Route) : Run σ τ Bool := do
  match ← Run.listFirst .routeApplications [(.routeId, route.id)] with
  | some _ =>
    Run.emit (.onRoute "route.orphan_skipped" route)
    return false
  | none =>
    o.deleteRoute route
    return true

/-- What has become of the routes so far. -/
structure Sweep (τ : Type) where
  deleted : List String
  failures : List (String × Failure τ)

/-- Handles one route of a sweep. A route that serves an instance is passed over. A failure of the
platform is recorded under the route's id; any other one ends the sweep. -/
def sweepRoute (o : Orchestrator τ) (sofar : Sweep τ) (route : Route) : Run σ τ (Sweep τ) := do
  if (route.serviceInstanceId.getD "").isEmpty then
    match ← attempt (o.deleteUnused route) with
    | .ok true => return { sofar with deleted := sofar.deleted ++ [route.id] }
    | .ok false => return sofar
    | .error f =>
      if f.isContained then
        return { sofar with failures := Failure.record sofar.failures route.id f }
      else throw f
  else
    Run.emit (.onRoute "route.orphan_skipped" route)
    return sofar

/-- Deletes every route of the space that neither an application nor a service uses, and answers
with the ids of those deleted. All routes are listed before the first is deleted, since a deletion
shifts the later pages. -/
def deleteOrphanedRoutes (o : Orchestrator τ) : Run σ τ (List String) := do
  let spaceId ← o.requireSpace
  let routes ← Run.listAll .spaceRoutes [(.spaceId, spaceId)]
  let sweep ← routes.foldlM (sweepRoute o) ⟨[], []⟩
  if sweep.failures.isEmpty then return sweep.deleted
  throw (.orphans sweep.failures)

end Orchestrator

end PlatformRoutes
