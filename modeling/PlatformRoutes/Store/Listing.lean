import PlatformRoutes.Store.Basic

namespace PlatformRoutes.Store

variable {τ : Type}

/-- Whether one text stands somewhere in another. -/
def isWithin (part : List Char) : List Char → Bool
  | [] => part.isEmpty
  | c :: cs => part.isPrefixOf (c :: cs) || isWithin part cs

/-- The wanted segment is stripped before it is compared. -/
def segmentFits (s : Store τ) (actual wanted : String) : Bool :=
  let wanted := normalSegment (some wanted)
  if s.substringFilters then isWithin wanted.toList actual.toList else actual == wanted

def passes (filters : Filters) (key : FilterKey) (test : String → Bool) : Bool :=
  match filters.get? key with
  | none => true
  | some wanted => test wanted

def routeFits (s : Store τ) (filters : Filters) (route : Route) : Bool :=
  passes filters .domainId (route.domainId == ·) &&
    passes filters .host (s.segmentFits route.host) &&
    passes filters .path (s.segmentFits route.path) &&
    passes filters .spaceId (route.spaceId == ·) &&
    passes filters .organizationId fun wanted => s.organizationOf route.spaceId == some wanted

def nameFits (filters : Filters) (name : String) : Bool :=
  passes filters .name (name == ·)

/-- A filter that names the parent of a listing has to be there. -/
def parent (filters : Filters) (key : FilterKey) : Except (Failure τ) String :=
  match filters.get? key with
  | some id => .ok id
  | none => .error .missingKey

def ownedBy (register : Register Owned) (filters : Filters) (owner : String) : List Ref :=
  (register.items.filter fun o => o.owner == owner && nameFits filters o.ref.name).map (·.ref)

def application (s : Store τ) (id : String) : Except (Failure τ) Ref :=
  match s.applications.find? id with
  | some o => .ok o.ref
  | none => .error .missingKey

/-- All that a listing holds, before it is cut into pages. -/
def select (s : Store τ) : (resource : Resource) → Filters → Except (Failure τ) (List resource.Item)
  | .organizations, filters =>
    .ok (s.organizations.items.filter fun r => nameFits filters r.name)
  | .organizationSpaces, filters => do
    return ownedBy s.spaces filters (← parent filters .organizationId)
  | .organizationPrivateDomains, filters => do
    let organizationId ← parent filters .organizationId
    return s.domains.items.filter fun d =>
      d.kind == .owned && d.owner == some organizationId && nameFits filters d.name
  | .sharedDomains, filters =>
    .ok (s.domains.items.filter fun d => d.kind == .shared && nameFits filters d.name)
  | .routes, filters => .ok (s.routes.items.filter (s.routeFits filters))
  | .spaceRoutes, filters => do
    let _ ← parent filters .spaceId
    return s.routes.items.filter (s.routeFits filters)
  | .spaceApplications, filters => do
    return ownedBy s.applications filters (← parent filters .spaceId)
  | .routeApplications, filters => do
    let routeId ← parent filters .routeId
    (s.associations.filter fun a => a.2 == routeId).mapM fun a => s.application a.1

/-- The number of pages that some items fill, the last of them perhaps in part. The platform rounds
up a quotient of floating-point numbers, which comes to the same below 2^53 items. -/
def pageCount (pageSize length : Nat) : Nat :=
  (length + pageSize - 1) / pageSize

/-- The items of one page; a page's number is at least one. -/
def cut (pageSize : Nat) (items : List α) (page : Int) : Checked (Page α) :=
  Page.of ((items.drop ((page - 1).toNat * pageSize)).take pageSize) page
    (pageCount pageSize items.length)

/-- The first failure that was set up for the listing. -/
def failureOf? (s : Store τ) (resource : Resource) (filters : Filters) : Option (Failure τ) :=
  (s.listFailures.find? fun f => f.resource == resource && filters.includes f.filters).map
    (·.failure)

def listPage (s : Store τ) (resource : Resource) (filters : Filters) (page : Int) :
    Except (Failure τ) (Page resource.Item) :=
  match s.failureOf? resource filters with
  | some failure => .error failure
  | none => do (cut s.pageSize (← s.select resource filters) page).toExcept

end PlatformRoutes.Store
