import PlatformRoutes.Record.Domain
import PlatformRoutes.Record.Route

namespace PlatformRoutes

/-- The listings a platform offers. -/
inductive Resource where
  | organizations
  | organizationSpaces
  | organizationPrivateDomains
  | sharedDomains
  | routes
  | spaceRoutes
  | spaceApplications
  | routeApplications
  deriving DecidableEq

namespace Resource

/-- What a listing holds. -/
abbrev Item : Resource → Type
  | organizations | organizationSpaces | spaceApplications | routeApplications => Ref
  | organizationPrivateDomains | sharedDomains => Domain
  | routes | spaceRoutes => Route

def name : Resource → String
  | organizations => "organizations"
  | organizationSpaces => "organization_spaces"
  | organizationPrivateDomains => "organization_private_domains"
  | sharedDomains => "shared_domains"
  | routes => "routes"
  | spaceRoutes => "space_routes"
  | spaceApplications => "space_applications"
  | routeApplications => "route_applications"

def all : List Resource :=
  [organizations, organizationSpaces, organizationPrivateDomains, sharedDomains, routes,
    spaceRoutes, spaceApplications, routeApplications]

def ofName? (s : String) : Option Resource :=
  all.find? fun r => r.name == s

end Resource

/-- What a listing can be narrowed by. A platform passes over the filters it does not know. -/
inductive FilterKey where
  | name
  | organizationId
  | spaceId
  | routeId
  | domainId
  | host
  | path
  | other (name : String)
  deriving DecidableEq

namespace FilterKey

def text : FilterKey → String
  | name => "name"
  | organizationId => "organization_id"
  | spaceId => "space_id"
  | routeId => "route_id"
  | domainId => "domain_id"
  | host => "host"
  | path => "path"
  | other s => s

def ofText (s : String) : FilterKey :=
  match [name, organizationId, spaceId, routeId, domainId, host, path].find? fun k => k.text == s with
  | some k => k
  | none => other s

end FilterKey

/-- Each key at most once, in the order in which a request writes them. -/
abbrev Filters := List (FilterKey × String)

namespace Filters

def get? (filters : Filters) (key : FilterKey) : Option String :=
  (filters.find? fun f => f.1 == key).map (·.2)

/-- Whether every wanted filter is set to the wanted value. -/
def includes (filters wanted : Filters) : Bool :=
  wanted.all fun w => filters.get? w.1 == some w.2

end Filters

end PlatformRoutes
