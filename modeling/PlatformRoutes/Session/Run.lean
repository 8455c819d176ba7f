import PlatformRoutes.Session.Basic

namespace PlatformRoutes.Session

variable {σ τ : Type}

abbrev Doing (σ τ α : Type) := Act (Session σ τ) τ α

/-- An operation on the platform as a part of a session. -/
def run (operation : Run σ τ α) : Doing σ τ α := fun s =>
  let (r, w) := operation.run s.world
  (r, { s with world := w })

/-- An action that only the platform at hand offers. -/
def onPlatform (act : Act σ τ α) : Doing σ τ α := run (Run.onPlatform act)

/-- The operations within the target; without one there are none. -/
def targeted : Doing σ τ (Orchestrator τ) := do
  match (← get).target with
  | some o => return o
  | none => throw .misshapen

def aim (o : Orchestrator τ) : Doing σ τ Reply := do
  modify fun s => { s with target := some o }
  return .targeted o.organizationId o.spaceId

def keep (name : String) (listing : Listing τ) : Doing σ τ Unit :=
  modify fun s => { s with listings := (name, listing) :: s.listings.filter fun l => l.1 != name }

/-- A listing that has nothing left. -/
def ended : Listing τ → Listing τ
  | .items resource filters _ => .items resource filters .exhausted
  | .records o _ => .records o .done

def opened (name : String) : Doing σ τ (Listing τ) := do
  match (← get).listings.find? fun l => l.1 == name with
  | some (_, listing) => return listing
  | none => throw .missingKey

variable [Platform σ τ]

/-- The next entry of a listing and what is left after it. -/
def pull : Listing τ → Run σ τ (Option (Entry × Listing τ))
  | .items resource filters cursor => do
    let found ← cursor.pull (Run.pagesOf resource filters) (← get).patience
    return found.map fun (x, rest) => (.item resource x, .items resource filters rest)
  | .records o listing => do
    let (found, rest) ← listing.pull o
    return found.map fun r => (.record r, .records o rest)

/-- A failure ends a listing for good. -/
def next (name : String) : Doing σ τ (Option Entry) := do
  let listing ← opened name
  keep name (ended listing)
  match ← run (pull listing) with
  | none => return none
  | some (entry, rest) =>
    keep name rest
    return some entry

/-- The first entry that is left; the listing is closed after it. -/
def first (name : String) : Doing σ τ (Option Entry) := do
  let entry ← next name
  keep name (ended (← opened name))
  return entry

variable [Add τ] [Sub τ] [OfNat τ 0] [LE τ] [LT τ] [DecidableLE τ] [DecidableLT τ]

def step : Step τ → Doing σ τ Reply
  | .listResources resource filters page =>
    return .page resource (← run (Run.listResources resource filters page))
  | .createRoute domainId spaceId host path =>
    return .route (← run (Run.createRoute domainId spaceId host path))
  | .deleteRoute routeId => return .job (← run (Run.deleteRoute routeId))
  | .getJob jobId => return .job (← run (Run.getJob jobId))
  | .associateRoute applicationId routeId => do
    run (Run.associateRoute applicationId routeId)
    return .done
  | .removeRoute applicationId routeId => do
    run (Run.removeRoute applicationId routeId)
    return .done
  | .resolveOrganization name => return .ref (← run (Run.resolveOrganization name))
  | .resolveSpace organizationId name => return .ref (← run (Run.resolveSpace organizationId name))
  | .resolveApplication spaceId name => return .ref (← run (Run.resolveApplication spaceId name))
  | .resolveDomain organizationId name =>
    return .domain (← run (Run.resolveDomain organizationId name))
  | .findRoute domain host path => return .route (← run (Run.findRoute domain host path))
  | .resolveRoute domain host path => return .route (← run (Run.resolveRoute domain host path))
  | .resolveOrCreateRoute domain host path spaceId =>
    return .route (← run (Run.resolveOrCreateRoute domain host path spaceId))
  | .awaitCompletion jobId interval timeout => do
    return .job (← run ((← get).poller.awaitCompletion jobId interval timeout))
  | .awaitJob job => do return .job (← run ((← get).poller.awaitJob job))
  | .raiseForFailed job => do
    run (Poller.raiseForFailed job)
    return .done
  | .target organization space => do
    aim (← run (Orchestrator.forNames organization space (← get).poller))
  | .targetIds organizationId spaceId => do aim ⟨organizationId, spaceId, (← get).poller⟩
  | .check domain host path => do return .flag (← run ((← targeted).check domain host path))
  | .create domain space host path => do
    return .route (← run ((← targeted).create domain space host path))
  | .map application domain host path => do
    return .route (← run ((← targeted).map application domain host path))
  | .unmap application domain host path => do
    run ((← targeted).unmap application domain host path)
    return .done
  | .delete domain host path => do
    run ((← targeted).delete domain host path)
    return .done
  | .list level => do return .records (← run ((← targeted).list level))
  | .deleteOrphaned => do return .ids (← run (← targeted).deleteOrphanedRoutes)
  | .openRecords name level => do
    keep name (.records (← targeted) (.fresh level))
    return .done
  | .openItems name resource filters => do
    keep name (.items resource filters .start)
    return .done
  | .next name => return .next (← next name)
  | .first name => return .first (← first name)
  | .close name => do
    keep name (ended (← opened name))
    return .done
  | .events name => do return .attributes (Event.named (← get).world.events name)
  | .eventNames => do return .names (Event.names (← get).world.events)

/-- Does the steps one after another; a step that fails does not stop the session. -/
def steps (todo : List (Step τ)) (s : Session σ τ) : List (Except (Failure τ) Reply) × Session σ τ :=
  todo.foldl (fun (replies, s) t =>
    let (r, s) := (step t).run s
    (replies ++ [r], s)) ([], s)

end PlatformRoutes.Session
