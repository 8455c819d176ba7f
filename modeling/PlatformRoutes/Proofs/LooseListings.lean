import PlatformRoutes.Proofs.ErrorAnswers
import PlatformRoutes.Proofs.Retuning
import PlatformRoutes.Proofs.Sieve

namespace PlatformRoutes

section Found

variable {σ τ α : Type} [Platform σ τ] {w v : World σ τ}

omit [Platform σ τ] in
theorem single_ok {kind : ResourceKind} {name : String} {a : α} :
    ∀ {l : List α}, (Run.single kind name l).run w = (.ok a, v) → l = [a]
  | [], h => by cases h
  | [_], h => by
    cases h
    rfl
  | _ :: _ :: _, h => by cases h

omit [Platform σ τ] in
theorem onlyRoute_ok {name : String} {r : Route} :
    ∀ {l : List Route}, (Run.onlyRoute name l).run w = (.ok (some r), v) → l = [r]
  | [], h => by cases h
  | [_], h => by
    cases h
    rfl
  | _ :: _ :: _, h => by cases h

/-- What a lookup finds is listed, and is what it is after. -/
theorem found_ok {q : Query} {items : List q.resource.Item}
    (h : (Run.found q).run w = (.ok items, v)) :
    ∃ listed, (Run.listAll q.resource q.filters).run w = (.ok listed, v) ∧
      ∀ x ∈ items, x ∈ listed ∧ q.means x = true := by
  obtain ⟨listed, u, hlisted, h⟩ := run_bind_eq_ok h
  cases h
  exact ⟨listed, hlisted, fun x hx => List.mem_filter.mp hx⟩

theorem single_means {q : Query} {kind : ResourceKind} {name : String} {x : q.resource.Item}
    (h : (Run.found q >>= Run.single kind name).run w = (.ok x, v)) : q.means x = true := by
  obtain ⟨items, u, hfound, h⟩ := run_bind_eq_ok h
  obtain ⟨_, _, hmeans⟩ := found_ok hfound
  exact (hmeans x (by rw [single_ok h]; exact List.mem_singleton_self x)).2

theorem resolveDomain_name {organizationId name : String} {d : Domain}
    (h : (Run.resolveDomain organizationId name).run w = (.ok d, v)) : d.name = name := by
  obtain ⟨owned, u, hfound, h⟩ := run_bind_eq_ok h
  split at h
  · obtain ⟨_, _, hmeans⟩ := found_ok (q := .ownedDomain organizationId name) hfound
    exact eq_of_beq (hmeans d (by rw [single_ok h]; exact List.mem_singleton_self d)).2
  · exact eq_of_beq (single_means (q := .sharedDomain name) h)

/-- A route has the host and the path that are asked for. It is on the domain as well, unless routes
of other domains are listed for it. -/
structure Route.Meets (r : Route) (w : World σ τ) (domain : Domain) (host path : Option String) :
    Prop where
  host_eq : r.host = normalSegment host
  path_eq : r.path = normalPath path
  key_eq : (∀ listed v, (Run.listAll .routes (Run.routeFilters domain host path)).run w =
      (.ok listed, v) → ∀ q ∈ listed, Route.domainId q = domain.id) →
    r.key = .of domain.id host path

variable {domain : Domain} {host path : Option String} {r : Route}

theorem findRoute_meets (h : (Run.findRoute domain host path).run w = (.ok (some r), v)) :
    r.Meets w domain host path := by
  rw [Run.findRoute_eq_found] at h
  obtain ⟨items, u, hfound, h⟩ := run_bind_eq_ok h
  obtain ⟨listed, hlisted, hmeans⟩ := found_ok hfound
  obtain ⟨hmem, hfits⟩ := hmeans r (by rw [onlyRoute_ok h]; exact List.mem_singleton_self r)
  obtain ⟨hhost, hpath⟩ : r.host = normalSegment host ∧ r.path = normalPath path := by
    simpa [Query.means, Route.fits] using hfits
  refine ⟨hhost, hpath, fun honest => ?_⟩
  rw [Route.key, honest listed u hlisted r hmem, hhost, hpath]
  rfl

theorem resolveRoute_ok (h : (Run.resolveRoute domain host path).run w = (.ok r, v)) :
    (Run.findRoute domain host path).run w = (.ok (some r), v) := by
  obtain ⟨found, u, hfound, h⟩ := run_bind_eq_ok h
  cases found with
  | none => cases h
  | some route =>
    cases h
    exact hfound

/-- A route that is reused is one that was looked up. -/
theorem resolveOrCreateRoute_cases {spaceId : String}
    (h : (Run.resolveOrCreateRoute domain host path spaceId).run w = (.ok r, v)) :
    (Run.findRoute domain host path).run w = (.ok (some r), v) ∨
      ∃ u, (Run.findRoute domain host path).run w = (.ok none, u) ∧
        (Run.createRoute domain.id spaceId (some (normalSegment host))
          (some (normalPath path))).run u = (.ok r, v) := by
  obtain ⟨found, u, hfound, h⟩ := run_bind_eq_ok h
  cases found with
  | none => exact .inr ⟨u, hfound, h⟩
  | some route =>
    cases h
    exact .inl hfound

end Found

namespace Orchestrator

variable {σ τ : Type} [Platform σ τ]

/-- The domain and the route that an operation is about. -/
def soughtRoute (o : Orchestrator τ) (domain : String) (host path : Option String) :
    Run σ τ (Domain × Route) := do
  let resolved ← Run.resolveDomain o.organizationId domain
  return (resolved, ← Run.resolveRoute resolved host path)

/-- The domain and the route that an operation is about, created if there is none. -/
def providedRoute (o : Orchestrator τ) (domain : String) (host path : Option String)
    (spaceId : String) : Run σ τ (Domain × Route) := do
  let resolved ← Run.resolveDomain o.organizationId domain
  return (resolved, ← Run.resolveOrCreateRoute resolved host path spaceId)

theorem create_eq (o : Orchestrator τ) (domain space : String) (host path : Option String) :
    o.create (σ := σ) domain space host path = do
      let spaceRef ← Run.resolveSpace o.organizationId space
      let (resolved, route) ← o.providedRoute domain host path spaceRef.id
      Run.emit (.onRouteOf "route.created" route resolved)
      return route := by
  simp only [create, providedRoute, bind_assoc, pure_bind]

theorem map_eq (o : Orchestrator τ) (application domain : String) (host path : Option String) :
    o.map (σ := σ) application domain host path = do
      let spaceId ← o.requireSpace
      let app ← Run.resolveApplication spaceId application
      let (resolved, route) ← o.providedRoute domain host path spaceId
      Run.associateRoute app.id route.id
      Run.emit (.onRouteOf "route.mapped" route resolved)
      return route := by
  simp only [map, providedRoute, bind_assoc, pure_bind]

theorem unmap_eq (o : Orchestrator τ) (application domain : String) (host path : Option String) :
    o.unmap (σ := σ) application domain host path = (do
      let spaceId ← o.requireSpace
      let app ← Run.resolveApplication spaceId application
      let (resolved, route) ← o.soughtRoute domain host path
      Run.removeRoute app.id route.id
      Run.emit (.onRouteOf "route.unmapped" route resolved)) := by
  simp only [unmap, soughtRoute, bind_assoc, pure_bind]

theorem delete_eq [Add τ] [Sub τ] [OfNat τ 0] [LE τ] [LT τ] [DecidableLE τ] [DecidableLT τ]
    (o : Orchestrator τ) (domain : String) (host path : Option String) :
    o.delete (σ := σ) domain host path = (do
      let (_, route) ← o.soughtRoute domain host path
      o.deleteRoute route) := by
  simp only [delete, soughtRoute, bind_assoc, pure_bind]

variable {o : Orchestrator τ} {w v : World σ τ} {domain : String} {host path : Option String}
  {resolved : Domain} {r : Route}

theorem soughtRoute_ok (h : (o.soughtRoute domain host path).run w = (.ok (resolved, r), v)) :
    ∃ u, (Run.resolveDomain o.organizationId domain).run w = (.ok resolved, u) ∧
      (Run.findRoute resolved host path).run u = (.ok (some r), v) := by
  obtain ⟨_, u, hdomain, h⟩ := run_bind_eq_ok h
  obtain ⟨_, _, hroute, h⟩ := run_bind_eq_ok h
  cases h
  exact ⟨u, hdomain, resolveRoute_ok hroute⟩

theorem providedRoute_ok {spaceId : String}
    (h : (o.providedRoute domain host path spaceId).run w = (.ok (resolved, r), v)) :
    ∃ u, (Run.resolveDomain o.organizationId domain).run w = (.ok resolved, u) ∧
      (Run.resolveOrCreateRoute resolved host path spaceId).run u = (.ok r, v) := by
  obtain ⟨_, u, hdomain, h⟩ := run_bind_eq_ok h
  obtain ⟨_, _, hroute, h⟩ := run_bind_eq_ok h
  cases h
  exact ⟨u, hdomain, hroute⟩

/-- A route is there if the operations that need one find it. -/
theorem check_true_iff : (o.check domain host path).run w = (.ok true, v) ↔
    ∃ resolved r, (o.soughtRoute domain host path).run w = (.ok (resolved, r), v) := by
  constructor
  · intro h
    obtain ⟨outcome, u, hattempt, h⟩ := run_bind_eq_ok h
    cases outcome with
    | error f =>
      dsimp only at h
      split at h <;> cases h
    | ok resolved =>
      obtain ⟨found, t, hroute, h⟩ := run_bind_eq_ok h
      cases found with
      | none => cases h
      | some r =>
        cases h
        refine ⟨resolved, r, ?_⟩
        have hdomain : (Run.resolveDomain o.organizationId domain).run w = (.ok resolved, u) := by
          rw [run_attempt] at hattempt
          obtain ⟨houtcome, hafter⟩ := Prod.mk.inj hattempt
          exact Prod.ext (Except.ok.inj houtcome) hafter
        rw [soughtRoute, run_bind_ok hdomain, Run.resolveRoute, bind_assoc, run_bind_ok hroute]
        rfl
  · rintro ⟨resolved, r, h⟩
    obtain ⟨u, hdomain, hroute⟩ := soughtRoute_ok h
    have hattempt : (attempt (Run.resolveDomain o.organizationId domain)).run w =
        (.ok (.ok resolved), u) := by rw [run_attempt, hdomain]
    rw [check, run_bind_ok hattempt]
    exact run_bind_ok hroute

end Orchestrator

section Exact

variable (σ : Type) {τ : Type} [Platform σ τ]

/-- Every lookup on a platform answers with nothing but what it was asked for, whatever else the
platform lists. -/
structure ExactLookups : Prop where
  organization : ∀ (w v : World σ τ) name r,
    (Run.resolveOrganization name).run w = (.ok r, v) → r.name = name
  space : ∀ (w v : World σ τ) organizationId name r,
    (Run.resolveSpace organizationId name).run w = (.ok r, v) → r.name = name
  application : ∀ (w v : World σ τ) spaceId name r,
    (Run.resolveApplication spaceId name).run w = (.ok r, v) → r.name = name
  domain : ∀ (w v : World σ τ) organizationId name d,
    (Run.resolveDomain organizationId name).run w = (.ok d, v) → d.name = name
  found : ∀ (w v : World σ τ) domain host path r,
    (Run.findRoute domain host path).run w = (.ok (some r), v) → r.Meets w domain host path
  resolved : ∀ (w v : World σ τ) domain host path r,
    (Run.resolveRoute domain host path).run w = (.ok r, v) → r.Meets w domain host path
  reused : ∀ (w v : World σ τ) domain host path spaceId r,
    (Run.resolveOrCreateRoute domain host path spaceId).run w = (.ok r, v) →
      r.Meets w domain host path ∨
        ∃ u, (Run.findRoute domain host path).run w = (.ok none, u) ∧
          (Run.createRoute domain.id spaceId (some (normalSegment host))
            (some (normalPath path))).run u = (.ok r, v)

theorem exactLookups : ExactLookups (τ := τ) σ where
  organization _ _ name _ h := eq_of_beq (single_means (q := .organization name) h)
  space _ _ organizationId name _ h :=
    eq_of_beq (single_means (q := .space organizationId name) h)
  application _ _ spaceId name _ h :=
    eq_of_beq (single_means (q := .application spaceId name) h)
  domain _ _ _ _ _ h := resolveDomain_name h
  found _ _ _ _ _ _ h := findRoute_meets h
  resolved _ _ _ _ _ _ h := findRoute_meets (resolveRoute_ok h)
  reused _ _ _ _ _ _ _ h := (resolveOrCreateRoute_cases h).imp_left findRoute_meets

variable [Add τ] [Sub τ] [OfNat τ 0] [LE τ] [LT τ] [DecidableLE τ] [DecidableLT τ]

/-- Every operation on one route acts on nothing but the route that was looked up for it, or that
was created as there was none. -/
structure ExactOperations (o : Orchestrator τ) : Prop where
  sought : ∀ (w v : World σ τ) domain host path resolved r,
    (o.soughtRoute domain host path).run w = (.ok (resolved, r), v) →
      ∃ u, (Run.resolveDomain o.organizationId domain).run w = (.ok resolved, u) ∧
        resolved.name = domain ∧ r.Meets u resolved host path
  provided : ∀ (w v : World σ τ) domain host path spaceId resolved r,
    (o.providedRoute domain host path spaceId).run w = (.ok (resolved, r), v) →
      ∃ u, (Run.resolveDomain o.organizationId domain).run w = (.ok resolved, u) ∧
        resolved.name = domain ∧ (r.Meets u resolved host path ∨
          ∃ t, (Run.findRoute resolved host path).run u = (.ok none, t) ∧
            (Run.createRoute resolved.id spaceId (some (normalSegment host))
              (some (normalPath path))).run t = (.ok r, v))
  check : ∀ (w v : World σ τ) domain host path,
    (o.check domain host path).run w = (.ok true, v) ↔
      ∃ resolved r, (o.soughtRoute domain host path).run w = (.ok (resolved, r), v)
  create : ∀ domain space host path, o.create (σ := σ) domain space host path = do
    let spaceRef ← Run.resolveSpace o.organizationId space
    let (resolved, route) ← o.providedRoute domain host path spaceRef.id
    Run.emit (.onRouteOf "route.created" route resolved)
    return route
  map : ∀ application domain host path, o.map (σ := σ) application domain host path = do
    let spaceId ← o.requireSpace
    let app ← Run.resolveApplication spaceId application
    let (resolved, route) ← o.providedRoute domain host path spaceId
    Run.associateRoute app.id route.id
    Run.emit (.onRouteOf "route.mapped" route resolved)
    return route
  unmap : ∀ application domain host path, o.unmap (σ := σ) application domain host path = do
    let spaceId ← o.requireSpace
    let app ← Run.resolveApplication spaceId application
    let (resolved, route) ← o.soughtRoute domain host path
    Run.removeRoute app.id route.id
    Run.emit (.onRouteOf "route.unmapped" route resolved)
  delete : ∀ domain host path, o.delete (σ := σ) domain host path = do
    let (_, route) ← o.soughtRoute domain host path
    o.deleteRoute route

theorem exactOperations (o : Orchestrator τ) : ExactOperations σ o where
  sought _ _ _ _ _ _ _ h := by
    obtain ⟨u, hdomain, hroute⟩ := Orchestrator.soughtRoute_ok h
    exact ⟨u, hdomain, resolveDomain_name hdomain, findRoute_meets hroute⟩
  provided _ _ _ _ _ _ _ _ h := by
    obtain ⟨u, hdomain, hroute⟩ := Orchestrator.providedRoute_ok h
    exact ⟨u, hdomain, resolveDomain_name hdomain,
      (resolveOrCreateRoute_cases hroute).imp_left findRoute_meets⟩
  check _ _ _ _ _ := Orchestrator.check_true_iff
  create := o.create_eq
  map := o.map_eq
  unmap := o.unmap_eq
  delete := o.delete_eq

end Exact

/-- Lookups stay exact when a platform lists loosely. On any platform they answer with nothing but
what they were asked for, and operations act on nothing else. On two platforms that agree on the
records that lookups are after, whatever else either lists and in whatever order and pages, every
step of a session is answered the same; so it is on one platform and on the same one behind a sieve
that lets nothing through but what is asked for. -/
theorem resolution_exact {τ : Type} (σ : Type) [Platform σ τ] [Add τ] [Sub τ] [OfNat τ 0] [LE τ]
    [LT τ] [DecidableLE τ] [DecidableLT τ] :
    ExactLookups (τ := τ) σ ∧ (∀ o : Orchestrator τ, ExactOperations σ o) ∧
    (∀ R : ℕ → ℕ → σ → σ → Prop, Twins (τ := τ) R →
      ∀ (todo : List (Step τ)) (room : ℕ) (a b : Session σ τ), (∀ t ∈ todo, t.resolves = true) →
        Session.Beside (R (room + 2 * todo.length)) a b →
          (Session.steps todo a).1 = (Session.steps todo b).1 ∧
          Session.Beside (R room) (Session.steps todo a).2 (Session.steps todo b).2) ∧
    (∀ (todo : List (Step τ)) (a : Session (Sieved σ) τ), (∀ t ∈ todo, t.resolves = true) →
      (Session.steps todo a).1 = (Session.steps todo (a.behind .exact)).1 ∧
      Session.Beside (Sieved.Same 0) (Session.steps todo a).2
        (Session.steps todo (a.behind .exact)).2) := by
  refine ⟨exactLookups σ, exactOperations σ, ?_, ?_⟩
  · intro R h todo room a b hall hab
    exact Session.agrees_steps (fun _ room ht => Session.agrees_step h ht room) todo hall room hab
  · intro todo a hall
    exact Session.agrees_steps (fun _ room ht => Session.agrees_step Sieved.twins ht room) todo hall
      0 ⟨_, rfl, _, rfl, rfl⟩

/-- Lookups of routes whose host is listed as part of another one's, and operations on them. -/
def partialHosts : List (Step ℚ) :=
  [.target "org" (some "space"),
    .findRoute ⟨"domain-3", "example.com", .shared, none⟩ (some "api") (some "v1"),
    .map "app" "example.com" (some "api") (some "v1"),
    .check "example.com" (some "api") (some "v1"),
    .delete "example.com" (some "api") (some "v1")]

/-- All that a platform with loose filters lists is let through. -/
def coarseSession : Session (Sieved (Store ℚ)) ℚ where
  world := ⟨⟨Turn.looseStore, .coarse⟩, 0, 0, none, [], [], 20⟩
  poller := ⟨1, 5⟩

theorem resolution_exact_loosely :
    (Session.steps partialHosts Session.looseSession).1 =
      (Session.steps partialHosts
        { Session.looseSession with world := Session.looseSession.world.retuned 50 false [] }).1 ∧
    (Session.steps partialHosts Session.looseSession).1.map Except.isOk =
      [true, true, true, true, true] ∧
    (Session.steps partialHosts coarseSession).1 =
      (Session.steps partialHosts (coarseSession.behind .exact)).1 ∧
    (Session.steps partialHosts coarseSession).2.world.platform.platform.routes.items =
      [⟨"route-5", "domain-3", "space-2", "api-v2", "/v1", none⟩] := by
  obtain ⟨-, -, hsame, hsieved⟩ := resolution_exact (τ := ℚ) (Store ℚ)
  have hbeside : Session.Beside (Store.Retuned (0 + 2 * partialHosts.length)) Session.looseSession
      { Session.looseSession with world := Session.looseSession.world.retuned 50 false [] } :=
    ⟨_, rfl, _, rfl, by decide, ⟨50, false, [], by decide, rfl⟩, by decide⟩
  exact ⟨(hsame _ Store.retuned_twins partialHosts 0 _ _ (by decide) hbeside).1, by decide +kernel,
    (hsieved partialHosts coarseSession (by decide)).1, by decide +kernel⟩

/-- A server that lists, for a domain, a route of another one. -/
def otherDomain : World (Http.Client Float) Float :=
  ⟨.awaiting 200 (
      "\x7b\"total_pages\": 1, \"resources\": [\x7b\"metadata\": \x7b\"guid\": \"route-1\"\x7d, " ++
        "\"entity\": \x7b\"domain_guid\": \"domain-2\", \"host\": \"api\"\x7d\x7d]\x7d"),
    0, 0, none, [], [], 9⟩

/-- The domain of a listed route is not compared again. -/
theorem findRoute_other_domain :
    ∃ r, ((Run.findRoute ⟨"domain-1", "example.com", .shared, none⟩ (some "api") none).run
        otherDomain).1 = .ok (some r) ∧
      r.key ≠ .of "domain-1" (some "api") none := by
  have hfound : ((Run.findRoute ⟨"domain-1", "example.com", .shared, none⟩ (some "api")
      none).run otherDomain).1.toOption.join.any
        (fun r => r.key != .of "domain-1" (some "api") none) = true := by decide +kernel
  cases hrun : ((Run.findRoute ⟨"domain-1", "example.com", .shared, none⟩ (some "api")
      none).run otherDomain).1 with
  | error f =>
    rw [hrun] at hfound
    cases hfound
  | ok found =>
    rw [hrun] at hfound
    cases found with
    | none => cases hfound
    | some r => exact ⟨r, rfl, by simpa [Except.toOption] using hfound⟩

end PlatformRoutes
