import PlatformRoutes.Paging

namespace PlatformRoutes

namespace Run

variable {σ τ : Type}

/-- The only match, if there is exactly one. -/
def single (kind : ResourceKind) (name : String) : List α → Run σ τ α
  | [] => throw (.notFound kind name)
  | [x] => pure x
  | xs => throw (.ambiguous kind name xs.length)

variable [Platform σ τ]

/-- A platform may filter loosely, so the names it lists are compared again. -/
def named (resource : Resource) (nameOf : resource.Item → String) (name : String)
    (filters : Filters) : Run σ τ (List resource.Item) := do
  return (← listAll resource filters).filter fun x => nameOf x == name

def resolveOrganization (name : String) : Run σ τ Ref := do
  let found ← named .organizations Ref.name name [(.name, name)]
  single .organization name found

def resolveSpace (organizationId name : String) : Run σ τ Ref := do
  let found ← named .organizationSpaces Ref.name name
    [(.name, name), (.organizationId, organizationId)]
  single .space name found

def resolveApplication (spaceId name : String) : Run σ τ Ref := do
  let found ← named .spaceApplications Ref.name name [(.name, name), (.spaceId, spaceId)]
  single .application name found

/-- A private domain of the organization comes first; the shared domains are listed only if no
private one has the name. -/
def resolveDomain (organizationId name : String) : Run σ τ Domain := do
  let owned ← named .organizationPrivateDomains Domain.name name
    [(.organizationId, organizationId), (.name, name)]
  if !owned.isEmpty then single .domain name owned
  else
    let shared ← named .sharedDomains Domain.name name [(.name, name)]
    single .domain name shared

/-- Empty hosts and paths are not asked for, since a platform may take them for any. -/
def routeFilters (domain : Domain) (host path : Option String) : Filters :=
  (.domainId, domain.id) ::
    [(FilterKey.host, normalSegment host), (FilterKey.path, normalPath path)].filter
      fun f => !f.2.isEmpty

/-- The route of the domain whose host and path are exactly those asked for. -/
def findRoute (domain : Domain) (host path : Option String) : Run σ τ (Option Route) := do
  let listed ← listAll .routes (routeFilters domain host path)
  match listed.filter fun r => r.fits host path with
  | [] => return none
  | [r] => return some r
  | rs => throw (.ambiguous .route (describeRoute domain.name host path) rs.length)

def resolveRoute (domain : Domain) (host path : Option String) : Run σ τ Route := do
  match ← findRoute domain host path with
  | some route => return route
  | none => throw (.notFound .route (describeRoute domain.name host path))

/-- The route asked for, created in the space if there is none. -/
def resolveOrCreateRoute (domain : Domain) (host path : Option String) (spaceId : String) :
    Run σ τ Route := do
  match ← findRoute domain host path with
  | some route => return route
  | none => createRoute domain.id spaceId (some (normalSegment host)) (some (normalPath path))

end Run

end PlatformRoutes
