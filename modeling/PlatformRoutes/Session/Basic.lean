import PlatformRoutes.Orchestrator

namespace PlatformRoutes

/-- A listing that is taken one by one. -/
inductive Listing (τ : Type) where
  | items (resource : Resource) (filters : Filters) (cursor : Cursor resource.Item)
  | records (orchestrator : Orchestrator τ) (rest : Orchestrator.Listing)

/-- What one item of a listing can be. -/
inductive Entry where
  | item (resource : Resource) (item : resource.Item)
  | record (record : RouteRecord)

/-- Work with one platform: what is targeted there, and the listings that are open by name. -/
structure Session (σ τ : Type) where
  world : World σ τ
  poller : Poller τ
  target : Option (Orchestrator τ) := none
  listings : List (String × Listing τ) := []

/-- One thing done in a session. -/
inductive Step (τ : Type) where
  | listResources (resource : Resource) (filters : Filters) (page : Int)
  | createRoute (domainId spaceId : String) (host path : Option String)
  | deleteRoute (routeId : String)
  | getJob (jobId : String)
  | associateRoute (applicationId routeId : String)
  | removeRoute (applicationId routeId : String)
  | resolveOrganization (name : String)
  | resolveSpace (organizationId name : String)
  | resolveApplication (spaceId name : String)
  | resolveDomain (organizationId name : String)
  | findRoute (domain : Domain) (host path : Option String)
  | resolveRoute (domain : Domain) (host path : Option String)
  | resolveOrCreateRoute (domain : Domain) (host path : Option String) (spaceId : String)
  | awaitCompletion (jobId : String) (interval timeout : Option τ)
  | awaitJob (job : Job)
  | raiseForFailed (job : Job)
  | target (organization : String) (space : Option String)
  | targetIds (organizationId : String) (spaceId : Option String)
  | check (domain : String) (host path : Option String)
  | create (domain space : String) (host path : Option String)
  | map (application domain : String) (host path : Option String)
  | unmap (application domain : String) (host path : Option String)
  | delete (domain : String) (host path : Option String)
  | list (level : Level)
  | deleteOrphaned
  | openRecords (name : String) (level : Level)
  | openItems (name : String) (resource : Resource) (filters : Filters)
  | next (name : String)
  | first (name : String)
  | close (name : String)
  | events (name : String)
  | eventNames

/-- What a step answers with. -/
inductive Reply where
  | done
  | flag (b : Bool)
  | ref (ref : Ref)
  | domain (domain : Domain)
  | route (route : Option Route)
  | job (job : Job)
  | page (resource : Resource) (page : Page resource.Item)
  | records (records : List RouteRecord)
  | ids (ids : List String)
  | targeted (organizationId : String) (spaceId : Option String)
  | next (entry : Option Entry)
  | first (entry : Option Entry)
  | attributes (attributes : List Json.Fields)
  | names (names : List String)

end PlatformRoutes
