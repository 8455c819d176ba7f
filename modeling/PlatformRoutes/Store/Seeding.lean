import PlatformRoutes.Store.Basic

namespace PlatformRoutes.Store

variable {τ : Type}

/-- Gives out a fresh id. All kinds of things share one count. -/
def mint (stem : String) : Act (Store τ) τ String := do
  let s ← get
  set { s with nextId := s.nextId + 1 }
  return stem ++ "-" ++ toString s.nextId

/-- Adds a thing made of checked parts. Its id is spent even if they are refused. -/
def adding (stem : String) (parts : Checked α) (add : α → Act (Store τ) τ β) : Act (Store τ) τ β :=
  match parts with
  | .ok a => add a
  | refused => do
    let _ ← mint stem
    let a ← ofOutcome refused.toExcept
    add a

def addOrganization (name : String) : Act (Store τ) τ Ref := do
  let ref := Ref.of (← mint "org") name
  modify fun s => { s with organizations := s.organizations.put ref }
  return ref

def addSpace (organizationId name : String) : Act (Store τ) τ Ref := do
  let ref := Ref.of (← mint "space") name
  modify fun s => { s with spaces := s.spaces.put ⟨ref, organizationId⟩ }
  return ref

def addPrivateDomain (organizationId name : String) : Act (Store τ) τ Domain := do
  let domain : Domain := ⟨← mint "private-domain", name, .owned, some organizationId⟩
  modify fun s => { s with domains := s.domains.put domain }
  return domain

def addSharedDomain (name : String) : Act (Store τ) τ Domain := do
  let domain : Domain := ⟨← mint "shared-domain", name, .shared, none⟩
  modify fun s => { s with domains := s.domains.put domain }
  return domain

def addApplication (spaceId name : String) : Act (Store τ) τ Ref := do
  let ref := Ref.of (← mint "app") name
  modify fun s => { s with applications := s.applications.put ⟨ref, spaceId⟩ }
  return ref

/-- A route needs a domain; its id is spent even if it has none. -/
def addRoute (domainId spaceId : String) (host path service : Option String) :
    Act (Store τ) τ Route := do
  let id ← mint "route"
  if domainId.isEmpty then throw (.invalid [⟨[.field "domain_id"], .emptyText⟩])
  let route := Route.of id domainId spaceId host path service
  modify fun s => { s with routes := s.routes.put route }
  return route

/-- Only a failed job tells why. -/
def scriptedJob (jobId : String) (error : Option ErrorDetails) (status : JobStatus) : Job :=
  ⟨if jobId.isEmpty then "pending" else jobId, status, if status = .failed then error else none⟩

/-- Sets what the looks at a job will show. -/
def scriptJob (jobId : String) (statuses : List JobStatus) (error : Option ErrorDetails) :
    Act (Store τ) τ Unit := do
  match statuses.map (scriptedJob jobId error) with
  | [] => throw (.badArgument .noStatus)
  | first :: later =>
    modify fun s =>
      let route := (s.jobs.find? jobId).bind (·.route)
      { s with jobs := s.jobs.put ⟨jobId, first, later, route⟩ }

/-- Sets what the job will show that deletes a route. -/
def scriptDelete (routeId : String) (statuses : List JobStatus) (error : Option ErrorDetails) :
    Act (Store τ) τ Unit := do
  match statuses.map (scriptedJob "" error) with
  | [] => throw (.badArgument .noStatus)
  | first :: later =>
    modify fun s => { s with deleteScripts := s.deleteScripts.put ⟨routeId, first, later⟩ }

def failList (resource : Resource) (failure : Failure τ) (filters : Filters) :
    Act (Store τ) τ Unit :=
  modify fun s => { s with listFailures := s.listFailures ++ [⟨resource, filters, failure⟩] }

end PlatformRoutes.Store
