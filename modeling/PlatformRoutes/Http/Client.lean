import PlatformRoutes.Http.Body
import PlatformRoutes.Http.Envelope
import PlatformRoutes.Http.Url
import PlatformRoutes.Json.Printer
import PlatformRoutes.Platform

namespace PlatformRoutes.Http

/-- Headers keep the spelling of their names and may name one thing twice. -/
abbrev Headers := List (String × String)

namespace Headers

/-- A header written again under the same spelling takes the new value. -/
def put : Headers → String → String → Headers
  | [], name, v => [(name, v)]
  | (n, old) :: rest, name, v => if n == name then (n, v) :: rest else (n, old) :: put rest name v

/-- All values under a name, whatever its letter case. -/
def get? (headers : Headers) (name : String) : Option String :=
  match headers.filter fun h => Text.lower h.1 == name with
  | [] => none
  | found => some (", ".intercalate (found.map (·.2)))

def erase (headers : Headers) (name : String) : Headers :=
  headers.filter fun h => Text.lower h.1 != name

/-- Headers are written in ASCII. -/
def encodable (headers : Headers) : Bool :=
  headers.all fun h => Text.isAscii h.1 && Text.isAscii h.2

end Headers

/-- A request as it leaves for the server. -/
structure Request where
  method : String
  url : String
  body : String
  headers : Headers

/-- What comes back for a request: an answer, or the failure to get one. A body is the text that its
bytes spell in UTF-8; bodies of bytes that spell none are not answered here. -/
inductive Answer (τ : Type) where
  | response (status : Nat) (body : String)
  | failure (f : Failure τ)

/-- A client of a platform's web interface. The answers still to come are part of its state, so a
run is determined by them. -/
structure Client (τ : Type) where
  base : Url
  pageSize : Int
  headers : Headers
  closed : Bool := false
  answers : List (Answer τ)
  /-- What comes of a request after the last answer. -/
  silence : Failure τ
  sent : List Request := []

namespace Client

variable {τ : Type}

/-- A client for an address, with a token unless it is empty. Further headers are added last. -/
def new? (apiUrl token : String) (pageSize : Int) (extra : Headers) (answers : List (Answer τ))
    (silence : Failure τ) : Except (Failure τ) (Client τ) := do
  let own : Headers :=
    ("Accept", "application/json") ::
      (if token.isEmpty then [] else [("Authorization", "bearer " ++ token)])
  let headers := extra.foldl (fun hs h => hs.put h.1 h.2) own
  if !headers.encodable then throw .unencodable
  match Url.read? apiUrl with
  | none => throw .unusableAddress
  | some url => return { base := url.asBase, pageSize, headers, answers, silence }

/-- The headers of a request: credentials in the address come before the token, and a body brings
its type. -/
def headersFor (c : Client τ) (hasBody : Bool) : Headers :=
  let authorized :=
    match c.base.basicCredentials with
    | none => c.headers
    | some credentials => c.headers.erase "authorization" ++ [("Authorization", credentials)]
  if hasBody && (authorized.get? "content-type").isNone then
    authorized ++ [("Content-Type", "application/json")]
  else authorized

/-- Sends a request and takes the next answer. -/
def send (request : Request) : Act (Client τ) τ (Nat × String) := do
  let c ← get
  match c.answers with
  | [] =>
    set { c with sent := c.sent ++ [request] }
    throw c.silence
  | answer :: rest =>
    set { c with sent := c.sent ++ [request], answers := rest }
    match answer with
    | .response status body => return (status, body)
    | .failure f => throw f

/-- What an answer holds: an error by its status, nothing where the body is empty or left out, and
otherwise JSON. -/
def payload (status : Nat) (body : String) : Except (Failure τ) Json :=
  if 400 ≤ status && status ≤ 599 then .error (errorOf (τ := τ) status (readBody body))
  else if status == 204 || body.isEmpty then .ok (.object [])
  else readBody body

def request (method path : String) (params : Option (List (String × String)))
    (body : Option Json) : Act (Client τ) τ Json := do
  let c ← get
  match c.base.append? path params with
  | none => throw .unusableAddress
  | some url =>
    if c.closed then throw .closed
    let (status, answer) ← send {
      method
      url := url.text
      body := (body.map fun v => String.ofList v.compact).getD ""
      headers := c.headersFor body.isSome }
    ofOutcome (payload status answer)

/-- Where a listing is found, below its parent if it has one. -/
def listPath (filters : Filters) : Resource → Except (Failure τ) String
  | .organizations => .ok "/v2/organizations"
  | .organizationSpaces => below "/v2/organizations/" .organizationId "/spaces"
  | .organizationPrivateDomains => below "/v2/organizations/" .organizationId "/private_domains"
  | .sharedDomains => .ok "/v2/shared_domains"
  | .routes => .ok "/v2/routes"
  | .spaceRoutes => below "/v2/spaces/" .spaceId "/routes"
  | .spaceApplications => below "/v2/spaces/" .spaceId "/apps"
  | .routeApplications => below "/v2/routes/" .routeId "/apps"
where
  below (front : String) (key : FilterKey) (back : String) : Except (Failure τ) String :=
    match filters.get? key with
    | some id => .ok (front ++ id ++ back)
    | none => .error .missingKey

/-- The filters that a listing passes on, under the server's names. -/
def queryField? : Resource → FilterKey → Option String
  | .organizations, .name | .organizationSpaces, .name | .organizationPrivateDomains, .name
  | .sharedDomains, .name | .spaceApplications, .name => some "name"
  | .routes, .domainId | .spaceRoutes, .domainId => some "domain_guid"
  | .routes, .host | .spaceRoutes, .host => some "host"
  | .routes, .path | .spaceRoutes, .path => some "path"
  | .routes, .organizationId => some "organization_guid"
  | _, _ => none

def listParams (resource : Resource) (filters : Filters) (page pageSize : Int) :
    List (String × String) :=
  (filters.filterMap fun f =>
    (queryField? resource f.1).map fun name => ("q", name ++ ":" ++ f.2)) ++
    [("page", toString page), ("results-per-page", toString pageSize)]

def listResources (resource : Resource) (filters : Filters) (page : Int) :
    Act (Client τ) τ (Page resource.Item) := do
  let path ← ofOutcome (listPath filters resource)
  let c ← get
  let answer ← request "GET" path (some (listParams resource filters page c.pageSize)) none
  ofOutcome (parsePage resource page answer)

/-- A host and a path are sent only where they are not empty. -/
def routeBody (domainId spaceId : String) (host path : Option String) : Json :=
  let given (name : String) (value : Option String) : Json.Fields :=
    match value with
    | none => []
    | some s => if s.isEmpty then [] else [(name, .text s)]
  .object ([("domain_guid", .text domainId), ("space_guid", .text spaceId)] ++
    given "host" host ++ given "path" path)

def createRoute (domainId spaceId : String) (host path : Option String) :
    Act (Client τ) τ Route := do
  let answer ← request "POST" "/v2/routes" none (some (routeBody domainId spaceId host path))
  ofOutcome (parseRoute answer)

def deleteRoute (routeId : String) : Act (Client τ) τ Job := do
  let answer ← request "DELETE" ("/v2/routes/" ++ routeId) (some [("async", "true")]) none
  ofOutcome (parseJob answer)

def getJob (jobId : String) : Act (Client τ) τ Job := do
  let answer ← request "GET" ("/v2/jobs/" ++ jobId) none none
  ofOutcome (parseJob answer)

def associationPath (applicationId routeId : String) : String :=
  "/v2/apps/" ++ applicationId ++ "/routes/" ++ routeId

def associateRoute (applicationId routeId : String) : Act (Client τ) τ Unit := do
  let _ ← request "PUT" (associationPath applicationId routeId) none none

def removeRoute (applicationId routeId : String) : Act (Client τ) τ Unit := do
  let _ ← request "DELETE" (associationPath applicationId routeId) none none

/-- No request is sent any more. -/
def close : Act (Client τ) τ Bool := do
  modify fun c => { c with closed := true }
  return true

instance : Platform (Client τ) τ where
  listResources := listResources
  createRoute := createRoute
  deleteRoute := deleteRoute
  getJob := getJob
  associateRoute := associateRoute
  removeRoute := removeRoute

end Client

end PlatformRoutes.Http
