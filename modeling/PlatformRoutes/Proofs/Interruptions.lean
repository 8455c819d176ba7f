import PlatformRoutes.Proofs.Untouched
import PlatformRoutes.Store.Waiting

namespace PlatformRoutes

namespace WaitingStore

variable {τ α γ : Type} {act : Act (Store τ) τ α} {view : Store τ → γ}

theorem run_awaiting_cancelled {p : WaitingStore τ}
    (h : p.cancelAt = some (p.store.calls.length + 1)) (request : Request)
    (act : Act (Store τ) τ α) :
    (awaiting request act).run p =
      (.error .cancelled, { p with store := { p.store with calls := p.store.calls ++ [request] } }) :=
  if_pos h

/-- A request that is not interrupted is carried out by the platform as it is. -/
theorem run_awaiting {p : WaitingStore τ} (h : p.cancelAt ≠ some (p.store.calls.length + 1))
    (request : Request) (act : Act (Store τ) τ α) :
    (awaiting request act).run p = ((act.run p.store).1, { p with store := (act.run p.store).2 }) :=
  if_neg h

/-- A part of the platform itself, and the request that is interrupted. -/
def within (view : Store τ → γ) (p : WaitingStore τ) : γ × Option Nat := (view p.store, p.cancelAt)

section Views

variable (hcalls : ∀ s calls, view { s with calls := calls } = view s)
include hcalls

theorem within_awaiting (h : ∀ s, view (act.run s).2 = view s) (request : Request)
    (p : WaitingStore τ) : within view ((awaiting request act).run p).2 = within view p := by
  by_cases hcancelled : p.cancelAt = some (p.store.calls.length + 1)
  · rw [run_awaiting_cancelled hcancelled]
    exact congrArg (·, p.cancelAt) (hcalls _ _)
  · rw [run_awaiting hcancelled]
    exact congrArg (·, p.cancelAt) (h _)

theorem awaiting_failsClean (h : ∀ s f t, act.run s = (.error f, t) → view t = view s)
    (request : Request) (p : WaitingStore τ) (f : Failure τ) (q : WaitingStore τ)
    (hrun : (awaiting request act).run p = (.error f, q)) : within view q = within view p := by
  by_cases hcancelled : p.cancelAt = some (p.store.calls.length + 1)
  · rw [run_awaiting_cancelled hcancelled] at hrun
    cases hrun
    exact congrArg (·, p.cancelAt) (hcalls _ _)
  · rw [run_awaiting hcancelled] at hrun
    obtain ⟨hfailed, rfl⟩ := Prod.mk.inj hrun
    exact congrArg (·, p.cancelAt) (h p.store f _ (Prod.ext hfailed rfl))

/-- Interrupting its requests does not make a platform less careful. -/
theorem careful_within (h : Careful view) : Careful (within view) where
  lists resource filters n := within_awaiting hcalls (h.lists resource filters n) _
  creates _ _ _ _ := awaiting_failsClean hcalls (h.creates _ _ _ _) _
  deletes routeId := within_awaiting hcalls (h.deletes routeId) _
  looks jobId p := by
    by_cases hcancelled : p.cancelAt = some (p.store.calls.length + 1)
    · have hrun := run_awaiting_cancelled hcancelled (.getJob jobId) (Platform.getJob jobId)
      exact .inl (by
        rw [show (Platform.getJob jobId).run p = _ from hrun]
        exact congrArg (·, p.cancelAt) (hcalls _ _))
    · have hrun := run_awaiting hcancelled (.getJob jobId) (Platform.getJob jobId)
      rw [show (Platform.getJob jobId).run p = _ from hrun]
      exact (h.looks jobId p.store).imp_left fun hsame => congrArg (·, p.cancelAt) hsame
  associates _ _ := awaiting_failsClean hcalls (h.associates _ _) _
  removes _ _ := awaiting_failsClean hcalls (h.removes _ _) _

end Views

theorem listResources_keeps (resource : Resource) (filters : Filters) (n : Int)
    (p : WaitingStore τ) :
    ((Platform.listResources resource filters n).run p).2.store.holdings = p.store.holdings := by
  have hcalls (s : Store τ) (calls : List Request) :
      { s with calls := calls }.holdings = s.holdings := rfl
  exact congrArg Prod.fst
    (within_awaiting hcalls (Store.listResources_keeps resource filters n) _ p)

end WaitingStore

section Leaving

variable {σ τ : Type} [Platform σ τ]

/-- What is left of a platform in memory by targeting that failed, and by a check or a listing however
it ended. -/
structure Orchestrator.Spares (o : Orchestrator τ) (store : σ → Store τ) (w v : World σ τ) : Prop where
  forNames : ∀ organization space poller f,
    (forNames organization space poller).run w = (.error f, v) →
      (store v.platform).mappings = (store w.platform).mappings
  check : ∀ domain host path outcome, (o.check domain host path).run w = (outcome, v) →
    (store v.platform).holdings = (store w.platform).holdings
  list : ∀ level outcome, (o.list level).run w = (outcome, v) →
    (store v.platform).holdings = (store w.platform).holdings
  pull : ∀ (listing : Listing) outcome, (listing.pull o).run w = (outcome, v) →
    (store v.platform).holdings = (store w.platform).holdings

/-- Where no listing changes what a platform holds, neither does what is made of listings alone. -/
theorem Orchestrator.spares_of_lists {store : σ → Store τ}
    (hlists : ∀ resource filters (n : Int) (s : σ),
      (store ((Platform.listResources resource filters n).run s).2).holdings = (store s).holdings)
    (o : Orchestrator τ) (w v : World σ τ) : o.Spares store w v := by
  have hpage (resource : Resource) (filters : Filters) (n : Int) :
      Preserves (fun s => (store s).holdings) (Run.listResources (σ := σ) resource filters n) :=
    Preserves.onPlatform (hlists resource filters n)
  have kept {α : Type} {x : Run σ τ α} {outcome : Except (Failure τ) α}
      (hx : Preserves (fun s => (store s).holdings) x) (hrun : x.run w = (outcome, v)) :
      (store v.platform).holdings = (store w.platform).holdings := by
    have hw := hx w
    rwa [hrun] at hw
  have hlookups := preserves_composed.lookups hpage
  exact {
    forNames := fun organization space poller f hrun =>
      congrArg Prod.fst (kept (hlookups.forNames organization space poller) hrun)
    check := fun domain host path outcome hrun => kept (hlookups.check o domain host path) hrun
    list := fun level outcome hrun => kept (preserves_composed.list hpage o level) hrun
    pull := fun listing outcome hrun => kept (preserves_composed.pullRecord hpage o listing) hrun }

end Leaving

namespace WaitingStore

variable {τ : Type}

/-- A route was made, and then the wait of the request that was to associate an application with it
was cancelled. -/
structure LeftUnmapped (p q : WaitingStore τ) (route : Route) : Prop where
  routes : q.store.routes = p.store.routes.put route
  associations : q.store.associations = p.store.associations
  asked : ∃ applicationId, q.store.calls.getLast? = some (.associateRoute applicationId route.id)
  cancelled : p.cancelAt = some q.store.calls.length

theorem createRoute_stores {p q : WaitingStore τ} {domainId spaceId : String}
    {host path : Option String} {route : Route}
    (h : (Platform.createRoute domainId spaceId host path).run p = (.ok route, q)) :
    q.store.mappings = (p.store.routes.put route, p.store.associations) ∧
      q.cancelAt = p.cancelAt := by
  change (awaiting _ (Store.createRoute domainId spaceId host path)).run p = _ at h
  by_cases hcancelled : p.cancelAt = some (p.store.calls.length + 1)
  · rw [run_awaiting_cancelled hcancelled] at h
    cases h
  · rw [run_awaiting hcancelled] at h
    obtain ⟨hroute, rfl⟩ := Prod.mk.inj h
    exact ⟨Store.createRoute_stores (Prod.ext hroute rfl), rfl⟩

/-- On its own a platform never fails to associate, so an interruption is the only failure. -/
theorem associateRoute_failed {p q : WaitingStore τ} {applicationId routeId : String}
    {f : Failure τ} (h : (Platform.associateRoute applicationId routeId).run p = (.error f, q)) :
    f = .cancelled ∧ p.cancelAt = some q.store.calls.length ∧ q.store.mappings = p.store.mappings ∧
      q.store.calls.getLast? = some (.associateRoute applicationId routeId) := by
  change (awaiting _ (Store.associateRoute applicationId routeId)).run p = _ at h
  by_cases hcancelled : p.cancelAt = some (p.store.calls.length + 1)
  · rw [run_awaiting_cancelled hcancelled] at h
    cases h
    refine ⟨rfl, ?_, rfl, List.getLast?_concat⟩
    dsimp only
    rw [List.length_append, List.length_singleton]
    exact hcancelled
  · rw [run_awaiting hcancelled] at h
    cases h

theorem leftUnmapped_of_failed {w v : World (WaitingStore τ) τ} {f : Failure τ}
    (h : FailedToAssociate (within Store.mappings) w v f) :
    f = .cancelled ∧ ∃ route, LeftUnmapped w.platform v.platform route := by
  obtain ⟨u, t, _, _, applicationId, _, _, route, hbefore, hcreate, hassociate⟩ := h
  obtain ⟨hmappings, hcancel⟩ := Prod.mk.inj hbefore
  obtain ⟨hroutes, hassociations⟩ := Prod.mk.inj hmappings
  obtain ⟨hstored, hcancel'⟩ := createRoute_stores (run_onPlatform_eq hcreate)
  obtain ⟨rfl, hcancelled, hkept, hasked⟩ := associateRoute_failed (run_onPlatform_eq hassociate)
  obtain ⟨hroutes', hassociations'⟩ := Prod.mk.inj (hkept.trans hstored)
  exact ⟨rfl, route, {
    routes := hroutes'.trans (congrArg (·.put route) hroutes)
    associations := hassociations'.trans hassociations
    asked := ⟨applicationId, hasked⟩
    cancelled := hcancel.symm.trans (hcancel'.symm.trans hcancelled) }⟩

end WaitingStore

/-- A platform on which the deletion of a route fails at the second look. -/
def refusingWorld : World (Store ℚ) ℚ where
  platform := { Turn.looseStore with
    associations := [("app-4", "route-5")]
    deleteScripts :=
      Register.empty.put ⟨"route-5", ⟨"pending", .running, none⟩, [⟨"pending", .failed, none⟩]⟩ }
  clock := 0
  fetchCost := 1
  cancelAt := none
  sleeps := []
  events := []
  patience := 9

def refusedDeletion : Run (Store ℚ) ℚ Reply :=
  Orchestrator.perform ⟨"org-1", none, ⟨1, 5⟩⟩
    (.delete "example.com" (some "api-v2") (some "v1"))

/-- A platform whose sixth request is interrupted. -/
def interruptedWorld : World (WaitingStore ℚ) ℚ :=
  { refusingWorld with platform := ⟨refusingWorld.platform, some 6⟩ }

def interruptedMapping : Run (WaitingStore ℚ) ℚ Reply :=
  Orchestrator.perform ⟨"org-1", some "space-2", ⟨1, 5⟩⟩
    (.map "app" "example.com" (some "api") (some "v1"))

end PlatformRoutes
