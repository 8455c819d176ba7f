import PlatformRoutes.Store.Requests

namespace PlatformRoutes

/-- A platform in memory whose requests can be interrupted. Each is noted down and then waits before
it is carried out; where that wait is cancelled, the note is all that is left of it. -/
structure WaitingStore (τ : Type) where
  store : Store τ
  /-- The request, counted from the first that was noted down, whose wait is cancelled. -/
  cancelAt : Option Nat

namespace WaitingStore

variable {τ α : Type}

def awaiting (request : Request) (act : Act (Store τ) τ α) : Act (WaitingStore τ) τ α := fun p =>
  if p.cancelAt = some (p.store.calls.length + 1) then
    (.error .cancelled, { p with store := { p.store with calls := p.store.calls ++ [request] } })
  else
    let (r, s) := act.run p.store
    (r, { p with store := s })

instance : Platform (WaitingStore τ) τ where
  listResources resource filters page :=
    awaiting (.listResources resource filters page) (Store.listResources resource filters page)
  createRoute domainId spaceId host path :=
    awaiting (.createRoute domainId spaceId host path) (Store.createRoute domainId spaceId host path)
  deleteRoute routeId := awaiting (.deleteRoute routeId) (Store.deleteRoute routeId)
  getJob jobId := awaiting (.getJob jobId) (Store.getJob jobId)
  associateRoute applicationId routeId :=
    awaiting (.associateRoute applicationId routeId) (Store.associateRoute applicationId routeId)
  removeRoute applicationId routeId :=
    awaiting (.removeRoute applicationId routeId) (Store.removeRoute applicationId routeId)

end WaitingStore

end PlatformRoutes
