import PlatformRoutes.Platform
import PlatformRoutes.Register

namespace PlatformRoutes

/-- A space with its organization, or an application with its space. -/
structure Owned where
  ref : Ref
  owner : String
  deriving DecidableEq

/-- What the looks at one job will show: the answers in their order, of which the last repeats. A
job that deletes a route names it until the deletion is done. -/
structure JobTrack where
  id : String
  current : Job
  later : List Job
  route : Option String
  deriving DecidableEq

/-- The next answer becomes the current one; the last answer stays. -/
def JobTrack.advance (t : JobTrack) : JobTrack :=
  match t.later with
  | [] => t
  | next :: rest => { t with current := next, later := rest }

/-- What the job will show that deletes one route. -/
structure DeleteScript where
  routeId : String
  first : Job
  later : List Job
  deriving DecidableEq

instance : Keyed Ref := ⟨Ref.id⟩
instance : Keyed Owned := ⟨fun o => o.ref.id⟩
instance : Keyed Domain := ⟨Domain.id⟩
instance : Keyed Route := ⟨Route.id⟩
instance : Keyed JobTrack := ⟨JobTrack.id⟩
instance : Keyed DeleteScript := ⟨DeleteScript.routeId⟩

/-- A request as it reached the platform. -/
inductive Request where
  | listResources (resource : Resource) (filters : Filters) (page : Int)
  | createRoute (domainId spaceId : String) (host path : Option String)
  | deleteRoute (routeId : String)
  | getJob (jobId : String)
  | associateRoute (applicationId routeId : String)
  | removeRoute (applicationId routeId : String)
  deriving DecidableEq

def Request.method : Request → String
  | listResources _ _ _ => "list_resources"
  | createRoute _ _ _ _ => "create_route"
  | deleteRoute _ => "delete_route"
  | getJob _ => "get_job"
  | associateRoute _ _ => "associate_route"
  | removeRoute _ _ => "remove_route"

def Request.resource? : Request → Option Resource
  | listResources resource _ _ => some resource
  | _ => none

/-- Listings of a resource that fail if their filters include the given ones. -/
structure ListFailure (τ : Type) where
  resource : Resource
  filters : Filters
  failure : Failure τ

/-- A platform held in memory. -/
structure Store (τ : Type) where
  pageSize : Nat
  /-- Host and path filters match parts of a text, as some servers do. -/
  substringFilters : Bool
  calls : List Request := []
  /-- The number of the next id to be given out. -/
  nextId : Nat := 1
  organizations : Register Ref := ∅
  spaces : Register Owned := ∅
  domains : Register Domain := ∅
  applications : Register Owned := ∅
  routes : Register Route := ∅
  /-- Pairs of an application and a route, in the order in which they were made. -/
  associations : List (String × String) := []
  jobs : Register JobTrack := ∅
  deleteScripts : Register DeleteScript := ∅
  listFailures : List (ListFailure τ) := []

namespace Store

variable {τ : Type}

/-- An empty platform; a page holds at least one item. -/
def new? (pageSize : Int) (substringFilters : Bool) : Except (Failure τ) (Store τ) :=
  if pageSize < 1 then .error (.badArgument .pageSize)
  else .ok { pageSize := pageSize.toNat, substringFilters }

def callCount (s : Store τ) (method : String) (resource : Option Resource) : Nat :=
  s.calls.countP fun c =>
    c.method == method && (resource.isNone || c.resource? == resource)

/-- The organization of a space. -/
def organizationOf (s : Store τ) (spaceId : String) : Option String :=
  (s.spaces.find? spaceId).map (·.owner)

end Store

end PlatformRoutes
