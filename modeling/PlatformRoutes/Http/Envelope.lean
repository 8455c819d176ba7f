import PlatformRoutes.Failure
import PlatformRoutes.Json.Plain
import PlatformRoutes.Number.Numeral
import PlatformRoutes.Record.Page
import PlatformRoutes.Record.Job
import PlatformRoutes.Resource

namespace PlatformRoutes.Http

abbrev Parsed (τ α : Type) := Except (Failure τ) α

/-- The fields of an object; nothing else has any. -/
def fieldsOf : Json → Parsed τ Json.Fields
  | .object fields => .ok fields
  | _ => .error .misshapen

/-- A value, unless it counts as absent. -/
def present (v : Option Json) : Option Json :=
  v.filter Json.isTruthy

/-- A value that counts as absent is an empty object. -/
def fieldsOrNone (v : Option Json) : Parsed τ Json.Fields :=
  match present v with
  | none => .ok []
  | some v => fieldsOf v

def plainOr (default : String) (v : Option Json) : String :=
  match present v with
  | none => default
  | some v => v.plain

/-- The part of a number before the point. -/
def truncate (x : Float) : Parsed τ Int :=
  match Number.Binary64.ofFloat x with
  | .nan => .error (.badArgument .unreadable)
  | .infinite _ => .error .tooLarge
  | .finite negative mantissa exponent =>
    .ok (Number.signedInt negative
      (if exponent < 0 then mantissa / Nat.pow 2 exponent.natAbs
      else mantissa * Nat.pow 2 exponent.natAbs))

/-- A value as a whole number; one that counts as absent is zero. -/
def wholeOrZero (v : Option Json) : Parsed τ Int :=
  match present v with
  | none => .ok 0
  | some (.int n) => .ok n
  | some (.bool b) => .ok (if b then 1 else 0)
  | some (.real x) => truncate x
  | some (.text s) =>
    match Number.writtenInt? s with
    | some n => .ok n
    | none => .error (.badArgument .unreadable)
  | some _ => .error .wrongType

/-- A record on the wire is wrapped: its id stands beside its other fields. -/
structure Envelope where
  guid : String
  entity : Json.Fields

/-- The id is looked for beside the fields first, then among them. -/
def Envelope.open (item : Json) : Parsed τ Envelope := do
  let fields ← fieldsOf item
  let metadata ← fieldsOrNone (fields.get? "metadata")
  let entity ← fieldsOrNone (fields.get? "entity")
  let guid := ((present (metadata.get? "guid")).or (present (entity.get? "guid"))).map Json.plain
  return ⟨guid.getD "", entity⟩

namespace Envelope

/-- A field of the entity; a missing one is null. -/
def field (e : Envelope) (name : String) : Json := (e.entity.get? name).getD .null

/-- A field of the entity, or the empty text where it counts as absent. -/
def fieldOrEmpty (e : Envelope) (name : String) : Json :=
  (present (e.entity.get? name)).getD (.text "")

def toRef (e : Envelope) : Checked Ref :=
  Ref.ofFields [("id", .text e.guid), ("name", e.fieldOrEmpty "name")]

def toDomain (kind : DomainKind) (e : Envelope) : Checked Domain :=
  Domain.ofFields [("id", .text e.guid), ("name", e.fieldOrEmpty "name"), ("kind", .text kind.name),
    ("owning_organization_id", e.field "owning_organization_guid")]

def toRoute (e : Envelope) : Checked Route :=
  Route.ofFields [("id", .text e.guid), ("domain_id", e.fieldOrEmpty "domain_guid"),
    ("space_id", e.fieldOrEmpty "space_guid"), ("host", e.field "host"), ("path", e.field "path"),
    ("service_instance_id", e.field "service_instance_guid")]

/-- A status in any letter case. A missing one means that the job waits, an unknown one that it
runs. -/
def status (e : Envelope) : JobStatus :=
  (JobStatus.ofName? (Text.lower (plainOr "queued" (e.entity.get? "status")))).getD .running

def details (e : Envelope) : Parsed τ (Option ErrorDetails) :=
  match present (e.entity.get? "error_details") with
  | none => .ok none
  | some v => do
    let fields ← fieldsOf v
    let code ← wholeOrZero (fields.get? "code")
    return some ⟨code, plainOr "" (fields.get? "description"), plainOr "" (fields.get? "error_code")⟩

def toJob (e : Envelope) : Parsed τ Job := do
  let details ← e.details
  if e.guid.isEmpty then throw (.invalid [⟨[.field "id"], .emptyText⟩])
  return ⟨e.guid, e.status, details⟩

def toItem (resource : Resource) (e : Envelope) : Checked resource.Item :=
  match resource with
  | .organizations | .organizationSpaces | .spaceApplications | .routeApplications => e.toRef
  | .organizationPrivateDomains => e.toDomain .owned
  | .sharedDomains => e.toDomain .shared
  | .routes | .spaceRoutes => e.toRoute

end Envelope

def parseJob (v : Json) : Parsed τ Job := do
  (← Envelope.open v).toJob

def parseRoute (v : Json) : Parsed τ Route := do
  (← Envelope.open v).toRoute.toExcept

def parseItem (resource : Resource) (v : Json) : Parsed τ resource.Item := do
  ((← Envelope.open v).toItem resource).toExcept

/-- The items of a list. Texts and objects have parts as well, but none of them is a record. -/
def itemsOf : Json → Parsed τ (List Json)
  | .list items => .ok items
  | .text s => .ok (s.toList.map fun c => .text (.singleton c))
  | .object fields => .ok (fields.map fun f => .text f.1)
  | _ => .error .wrongType

def parsePage (resource : Resource) (number : Int) (v : Json) :
    Parsed τ (Page resource.Item) := do
  let fields ← fieldsOf v
  let items ←
    match fields.get? "resources" with
    | none => pure []
    | some v => itemsOf v
  let items ← items.mapM (parseItem resource)
  let total ← wholeOrZero (fields.get? "total_pages")
  (Page.of items number total).toExcept

/-- The standard phrase of an error status, empty for one that has none. -/
def reasonPhrase : Nat → String
  | 400 => "Bad Request"
  | 401 => "Unauthorized"
  | 402 => "Payment Required"
  | 403 => "Forbidden"
  | 404 => "Not Found"
  | 405 => "Method Not Allowed"
  | 406 => "Not Acceptable"
  | 407 => "Proxy Authentication Required"
  | 408 => "Request Timeout"
  | 409 => "Conflict"
  | 410 => "Gone"
  | 411 => "Length Required"
  | 412 => "Precondition Failed"
  | 413 => "Request Entity Too Large"
  | 414 => "Request-URI Too Long"
  | 415 => "Unsupported Media Type"
  | 416 => "Requested Range Not Satisfiable"
  | 417 => "Expectation Failed"
  | 418 => "I'm a teapot"
  | 421 => "Misdirected Request"
  | 422 => "Unprocessable Entity"
  | 423 => "Locked"
  | 424 => "Failed Dependency"
  | 425 => "Too Early"
  | 426 => "Upgrade Required"
  | 428 => "Precondition Required"
  | 429 => "Too Many Requests"
  | 431 => "Request Header Fields Too Large"
  | 451 => "Unavailable For Legal Reasons"
  | 500 => "Internal Server Error"
  | 501 => "Not Implemented"
  | 502 => "Bad Gateway"
  | 503 => "Service Unavailable"
  | 504 => "Gateway Timeout"
  | 505 => "HTTP Version Not Supported"
  | 506 => "Variant Also Negotiates"
  | 507 => "Insufficient Storage"
  | 508 => "Loop Detected"
  | 510 => "Not Extended"
  | 511 => "Network Authentication Required"
  | _ => ""

/-- The failure that an error answer stands for. A body that is no object says nothing. -/
def errorOf (status : Nat) (body : Except (Failure τ) Json) : Failure τ :=
  let fields : Json.Fields :=
    match body with
    | .ok (.object fields) => fields
    | _ => []
  match wholeOrZero (fields.get? "code") with
  | .error f => f
  | .ok code =>
    .platform status code (plainOr (reasonPhrase status) (fields.get? "description"))
      (plainOr "" (fields.get? "error_code"))

end PlatformRoutes.Http
