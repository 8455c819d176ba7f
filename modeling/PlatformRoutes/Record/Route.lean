import PlatformRoutes.Record.Ref
import PlatformRoutes.Record.Segment

namespace PlatformRoutes

/-- What tells two routes apart: the domain, the host and the path. -/
structure RouteKey where
  domainId : String
  host : String
  path : String
  deriving DecidableEq

/-- The key of the route that a request spells. -/
def RouteKey.of (domainId : String) (host path : Option String) : RouteKey :=
  ⟨domainId, normalSegment host, normalPath path⟩

/-- A host and a path under a domain, owned by a space. -/
structure Route where
  id : String
  domainId : String
  spaceId : String
  host : String
  path : String
  serviceInstanceId : Option String
  deriving DecidableEq

namespace Route

/-- Nothing and a text are normalized; no other value can be. -/
def segmentOf (normal : Option String → String) (v : Json) : Checked String :=
  match v with
  | .null => .ok (normal none)
  | .text s => .ok (normal (some s))
  | _ => .misshapen

def serviceOf (v : Json) : Checked (Option String) :=
  if v.isTruthy then (Json.Fields.text v).map some else .ok none

def ofFields (fields : Json.Fields) : Checked Route :=
  (fun id domainId spaceId host path service (_ : Unit) =>
      ⟨id, domainId, spaceId, host, path, service⟩)
    <$> fields.required "id" Json.Fields.nonEmptyText
    <*> fields.required "domain_id" Json.Fields.nonEmptyText
    <*> fields.optional "space_id" "" Json.Fields.text
    <*> fields.optional "host" "" (segmentOf normalSegment)
    <*> fields.optional "path" "" (segmentOf normalPath)
    <*> fields.optional "service_instance_id" none serviceOf
    <*> fields.noOthers ["id", "domain_id", "space_id", "host", "path", "service_instance_id"]

def toFields (r : Route) : Json.Fields :=
  [("id", .text r.id), ("domain_id", .text r.domainId), ("space_id", .text r.spaceId),
    ("host", .text r.host), ("path", .text r.path),
    ("service_instance_id", (r.serviceInstanceId.map .text).getD .null)]

/-- A route that has an id and a domain already. -/
def of (id domainId spaceId : String) (host path service : Option String) : Route :=
  ⟨id, domainId, spaceId, normalSegment host, normalPath path,
    service.filter fun s => !s.isEmpty⟩

def key (r : Route) : RouteKey := ⟨r.domainId, r.host, r.path⟩

def ref (r : Route) : Ref := .of r.id (if r.host.isEmpty then r.id else r.host)

/-- Whether the request spells this route's host and path. -/
def fits (r : Route) (host path : Option String) : Bool :=
  r.host == normalSegment host && r.path == normalPath path

end Route

end PlatformRoutes
