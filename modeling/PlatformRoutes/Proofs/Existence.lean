import PlatformRoutes.Proofs.LooseListings
import PlatformRoutes.Proofs.Reachable
import PlatformRoutes.Proofs.Sweep
import PlatformRoutes.Proofs.Untouched

namespace PlatformRoutes

/-- A later world that differs in nothing but some more requests for listings. -/
def World.Listed {τ : Type} (w v : World (Store τ) τ) : Prop :=
  ∃ requests, (∀ q ∈ requests, Request.isListing q = true) ∧ v = w.logged requests

/-- An operation comes to an outcome, and does nothing but list. -/
def World.ListsTo {τ α : Type} (w : World (Store τ) τ) (x : Run (Store τ) τ α)
    (outcome : Except (Failure τ) α) : Prop :=
  ∃ v, w.Listed v ∧ x.run w = (outcome, v)

namespace World.Listed

variable {τ : Type} {u v w : World (Store τ) τ}

theorem refl (w : World (Store τ) τ) : w.Listed w :=
  ⟨[], by simp, (Store.logged_nil w).symm⟩

theorem trans (h : w.Listed v) (h' : v.Listed u) : w.Listed u := by
  obtain ⟨before, hbefore, rfl⟩ := h
  obtain ⟨later, hlater, rfl⟩ := h'
  refine ⟨before ++ later, fun q hq => ?_, Store.logged_logged w before later⟩
  exact (List.mem_append.mp hq).elim (hbefore q) (hlater q)

/-- Only requests for listings are new. -/
theorem asked {β : Type} {f : Request → Option β} (h : w.Listed v)
    (hf : ∀ q, Request.isListing q = true → f q = none) :
    v.platform.calls.filterMap f = w.platform.calls.filterMap f := by
  obtain ⟨requests, hrequests, rfl⟩ := h
  change (w.platform.calls ++ requests).filterMap f = _
  rw [List.filterMap_append, List.filterMap_eq_nil_iff.mpr fun q hq => hf q (hrequests q hq),
    List.append_nil]

end World.Listed

/-- The keys of the routes that the platform has been asked to create. -/
def Store.creations {τ : Type} (s : Store τ) : List RouteKey := s.calls.filterMap Request.key?

theorem World.Listed.creations {τ : Type} {v w : World (Store τ) τ} (h : w.Listed v) :
    v.platform.creations = w.platform.creations :=
  h.asked fun q hq => by cases q <;> first | rfl | cases hq

theorem World.Listed.deletions {τ : Type} {v w : World (Store τ) τ} (h : w.Listed v) :
    v.platform.deletions = w.platform.deletions :=
  h.asked fun q hq => by cases q <;> first | rfl | cases hq

theorem Store.creations_after {τ : Type} {q : Request} (h : q.key? = none) (s : Store τ) :
    (q.after s).creations = s.creations := by
  rw [creations, calls_after, List.filterMap_append, List.filterMap_cons_none h]
  exact List.append_nil _

namespace Store

variable {τ α β : Type} {v w : World (Store τ) τ} {x y z : Run (Store τ) τ α}

/-- From a world on, an operation only lists until it goes on as another one. -/
def GoesOn (w : World (Store τ) τ) (x y : Run (Store τ) τ α) : Prop :=
  ∀ u, w.Listed u → ∃ v, w.Listed v ∧ x.run u = y.run v

theorem GoesOn.trans (h : GoesOn w x y) (h' : GoesOn w y z) : GoesOn w x z := by
  intro u hu
  obtain ⟨v, hv, hxy⟩ := h u hu
  obtain ⟨t, ht, hyz⟩ := h' v hv
  exact ⟨t, ht, hxy.trans hyz⟩

/-- A part that only lists may be replaced by one that does nothing and comes to the same. -/
theorem Looks.goesOn (hx : Looks x) (hy : ∀ v, y.run v = ((x.run w).1, v))
    (f : α → Run (Store τ) τ β) : GoesOn w (x >>= f) (y >>= f) := by
  rintro u ⟨before, hbefore, rfl⟩
  obtain ⟨requests, hrequests, hrun⟩ := hx.run_listed w
  have hlisted : (w.logged before).Listed (w.logged (before ++ requests)) :=
    ⟨requests, hrequests, (logged_logged w before requests).symm⟩
  refine ⟨w.logged (before ++ requests), .trans ⟨before, hbefore, rfl⟩ hlisted, ?_⟩
  have hx' := hrun before
  have hy' := hy (w.logged (before ++ requests))
  cases ho : (x.run w).1 with
  | ok a =>
    rw [ho] at hx' hy'
    rw [run_bind_ok hx', run_bind_ok hy']
  | error e =>
    rw [ho] at hx' hy'
    rw [run_bind_error hx', run_bind_error hy']

theorem Looks.goesOn_ok (hx : Looks x) {a : α} (ha : (x.run w).1 = .ok a)
    (f : α → Run (Store τ) τ β) : GoesOn w (x >>= f) (f a) := by
  have h := hx.goesOn (y := pure a) (fun v => by rw [ha]; rfl) f
  rwa [pure_bind] at h

/-- What a lookup of a route comes to by the routes that are stored under its key. -/
def verdict (s : Store τ) (domain : Domain) (host path : Option String) :
    Run (Store τ) τ (Option Route) :=
  Run.onlyRoute (describeRoute domain.name host path) (s.routesAt (.of domain.id host path))

/-- Where no failure is set up, a lookup of a route comes to what is stored under its key. -/
theorem outcome_findRoute (h : w.Patient) (calm : w.platform.listFailures = []) (domain : Domain)
    (host path : Option String) :
    ((Run.findRoute domain host path).run w).1 =
      ((w.platform.verdict domain host path).run w).1 := by
  have hlooks := looks_composed.found (looks_page (τ := τ)) (.route domain host path)
  have hlisted := listing_routeFilters w.platform domain host path
  rw [failureOf?, calm] at hlisted
  have hfound : ((Run.found (.route domain host path)).run w).1 =
      .ok (w.platform.routesAt (.of domain.id host path)) :=
    (outcome_found h (.route domain host path)).trans hlisted
  rw [Run.findRoute_eq_found, hlooks.outcome_bind (looks_composed.onlyRoute _), hfound]
  rfl

theorem run_onlyRoute (name : String) (v w : World (Store τ) τ) : ∀ routes : List Route,
    (Run.onlyRoute name routes).run v = (((Run.onlyRoute name routes).run w).1, v)
  | [] => rfl
  | [_] => rfl
  | _ :: _ :: _ => rfl

theorem goesOn_findRoute (h : w.Patient) (calm : w.platform.listFailures = []) (domain : Domain)
    (host path : Option String) {f g : Option Route → Run (Store τ) τ α}
    (hfg : ∀ found, f found = g found) :
    GoesOn w (Run.findRoute domain host path >>= f)
      (w.platform.verdict domain host path >>= g) := by
  obtain rfl : f = g := funext hfg
  refine (looks_lookups.findRoute domain host path).goesOn (fun v => ?_) f
  rw [outcome_findRoute h calm]
  exact run_onlyRoute _ v w _

/-- All that a lookup finds was selected for it. -/
theorem found_selected {q : Query} {found : List q.resource.Item}
    (h : (Run.found q).run w = (.ok found, v)) :
    ∃ all, w.platform.select q.resource q.filters = .ok all ∧ found ⊆ all := by
  obtain ⟨listed, hlisted, hfound⟩ := found_ok h
  obtain ⟨all, hall, hsub⟩ := mem_of_listAll hlisted
  exact ⟨all, select_of_listing hall, fun x hx => hsub (hfound x hx).1⟩

/-- A domain that a name resolves to is stored, and is the organization's own or a shared one. -/
theorem resolveDomain_selected {organizationId name : String} {domain : Domain}
    (h : (Run.resolveDomain organizationId name).run w = (.ok domain, v)) :
    domain ∈ w.platform.domains.items ∧
      (domain.owner = some organizationId ∨ domain.kind = .shared) := by
  obtain ⟨owned, u, howned, h⟩ := run_bind_eq_ok h
  split at h
  · obtain ⟨all, hall, hsub⟩ := found_selected (q := .ownedDomain organizationId name) howned
    change Except.ok (w.platform.domains.items.filter fun d =>
      d.kind == .owned && d.owner == some organizationId && _) = .ok all at hall
    cases hall
    rw [single_ok h] at hsub
    obtain ⟨hstored, hfits⟩ := List.mem_filter.mp (hsub (List.mem_singleton_self domain))
    simp only [Bool.and_eq_true] at hfits
    exact ⟨hstored, .inl (eq_of_beq hfits.1.2)⟩
  · -- The shared domains are listed in a world that has seen the first listing.
    obtain ⟨requests, rfl⟩ :=
      (looks_composed.found looks_page (.ownedDomain organizationId name)).run_ok howned
    obtain ⟨shared, t, hshared, h⟩ := run_bind_eq_ok h
    obtain ⟨all, hall, hsub⟩ := found_selected (q := .sharedDomain name) hshared
    cases hall
    rw [single_ok h] at hsub
    obtain ⟨hstored, hfits⟩ := List.mem_filter.mp (hsub (List.mem_singleton_self domain))
    simp only [Bool.and_eq_true] at hfits
    exact ⟨hstored, .inr (eq_of_beq hfits.1)⟩

/-- A domain that a name resolves to is stored. -/
theorem resolveDomain_stored {organizationId name : String} {domain : Domain}
    (h : (Run.resolveDomain organizationId name).run w = (.ok domain, v)) :
    domain ∈ w.platform.domains.items :=
  (resolveDomain_selected h).1

end Store

/-- An operation of an orchestrator on an application is about one of the space that it targets. -/
structure Orchestrator.Targets {τ : Type} (o : Orchestrator τ) (w : World (Store τ) τ)
    (application spaceId : String) (app : Ref) : Prop where
  space : (o.requireSpace.run w).1 = .ok spaceId
  application : ((Run.resolveApplication spaceId application).run w).1 = .ok app

/-- An operation asks once for a route to be created, and answers with it. The route is added to
the routes that there are. -/
def World.Creates {τ : Type} (w : World (Store τ) τ) (x : Run (Store τ) τ Route) (key : RouteKey)
    (spaceId : String) : Prop :=
  ∃ r v, x.run w = (.ok r, v) ∧ r.key = key ∧ r.spaceId = spaceId ∧
    v.platform.creations = w.platform.creations ++ [key] ∧
    v.platform.routes.items = w.platform.routes.items ++ [r]

/-- An operation answers with a route without having any created. -/
def World.Reuses {τ : Type} (w : World (Store τ) τ) (x : Run (Store τ) τ Route) (r : Route) :
    Prop :=
  ∃ v, x.run w = (.ok r, v) ∧ v.platform.creations = w.platform.creations ∧
    v.platform.routes = w.platform.routes

section Verdicts

variable {τ : Type} [Add τ] [Sub τ] [OfNat τ 0] [LE τ] [LT τ] [DecidableLE τ] [DecidableLT τ]
  (o : Orchestrator τ) (w : World (Store τ) τ) (name : String) (domain : Domain)
  (host path : Option String)

/-- What the operations on a route come to if there is none. -/
structure NoRoute : Prop where
  check : w.ListsTo (o.check name host path) (.ok false)
  delete : w.ListsTo (o.delete name host path)
    (.error (.notFound .route (describeRoute domain.name host path)))
  unmap : ∀ application spaceId app, o.Targets w application spaceId app →
    w.ListsTo (o.unmap application name host path)
      (.error (.notFound .route (describeRoute domain.name host path)))
  create : ∀ space ref, ((Run.resolveSpace o.organizationId space).run w).1 = .ok ref →
    w.Creates (o.create name space host path) (.of domain.id host path) ref.id
  map : ∀ application spaceId app, o.Targets w application spaceId app →
    w.Creates (o.map application name host path) (.of domain.id host path) spaceId

/-- What they come to if there is one. -/
structure OneRoute (r : Route) : Prop where
  check : w.ListsTo (o.check name host path) (.ok true)
  create : ∀ space ref, ((Run.resolveSpace o.organizationId space).run w).1 = .ok ref →
    w.Reuses (o.create name space host path) r
  map : ∀ application spaceId app, o.Targets w application spaceId app →
    w.Reuses (o.map application name host path) r
  /-- The deletion is started, and then waited for. -/
  delete : ∃ v, w.Listed v ∧ (o.delete name host path).run w = (o.deleteRoute r).run v ∧
    (Store.deleteRoute r.id).run v.platform =
      (.ok ⟨Store.jobName w.platform.nextId, .queued, none⟩, v.platform.deleting r.id) ∧
    ((o.delete name host path).run w).2.platform.deletions = w.platform.deletions ++ [r.id]
  unmap : ∀ application spaceId app, o.Targets w application spaceId app →
    ∃ v, (o.unmap application name host path).run w = (.ok (), v) ∧
      v.platform = { w.platform with
        calls := v.platform.calls
        associations := w.platform.associations.filter (· != (app.id, r.id)) }

/-- What they come to if there are several. -/
structure ManyRoutes (count : ℕ) : Prop where
  check : w.ListsTo (o.check name host path)
    (.error (.ambiguous .route (describeRoute domain.name host path) count))
  delete : w.ListsTo (o.delete name host path)
    (.error (.ambiguous .route (describeRoute domain.name host path) count))
  unmap : ∀ application spaceId app, o.Targets w application spaceId app →
    w.ListsTo (o.unmap application name host path)
      (.error (.ambiguous .route (describeRoute domain.name host path) count))
  create : ∀ space ref, ((Run.resolveSpace o.organizationId space).run w).1 = .ok ref →
    w.ListsTo (o.create name space host path)
      (.error (.ambiguous .route (describeRoute domain.name host path) count))
  map : ∀ application spaceId app, o.Targets w application spaceId app →
    w.ListsTo (o.map application name host path)
      (.error (.ambiguous .route (describeRoute domain.name host path) count))

end Verdicts

namespace Orchestrator

open Store

variable {τ α : Type} {o : Orchestrator τ} {w : World (Store τ) τ} {name : String}
  {domain : Domain} {host path : Option String}

/-- What is left to do with a route that was asked for. -/
def created (domain : Domain) (r : Route) : Run (Store τ) τ Route := do
  Run.emit (.onRouteOf "route.created" r domain)
  return r

/-- What is left to do with a route that is to be mapped. -/
def mapped (app : Ref) (domain : Domain) (r : Route) : Run (Store τ) τ Route := do
  Run.associateRoute app.id r.id
  Run.emit (.onRouteOf "route.mapped" r domain)
  return r

section Pursuit

variable (h : w.Patient) (calm : w.platform.listFailures = [])
  (hdomain : ((Run.resolveDomain o.organizationId name).run w).1 = .ok domain)
include h calm hdomain

theorem goesOn_check (host path : Option String) :
    GoesOn w (o.check name host path)
      (w.platform.verdict domain host path >>= fun found => return found.isSome) := by
  have hresolved : ((attempt (Run.resolveDomain o.organizationId name)).run w).1 =
      .ok (.ok domain) := congrArg Except.ok hdomain
  exact ((looks_lookups.resolveDomain _ _).attempt.goesOn_ok hresolved _).trans
    (goesOn_findRoute h calm domain host path fun _ => rfl)

/-- What needs a route goes on by what is stored under its key. -/
theorem goesOn_soughtRoute (f : Domain × Route → Run (Store τ) τ α) :
    GoesOn w (o.soughtRoute name host path >>= f)
      (w.platform.verdict domain host path >>= fun
          | some r => f (domain, r)
          | none => throw (.notFound .route (describeRoute domain.name host path))) := by
  rw [soughtRoute, bind_assoc]
  refine ((looks_lookups.resolveDomain _ _).goesOn_ok hdomain _).trans ?_
  rw [Run.resolveRoute, bind_assoc, bind_assoc]
  refine goesOn_findRoute h calm domain host path fun found => ?_
  cases found <;> rfl

/-- What provides a route goes on by what is stored under its key. -/
theorem goesOn_providedRoute (spaceId : String) (f : Domain × Route → Run (Store τ) τ α) :
    GoesOn w (o.providedRoute name host path spaceId >>= f)
      (w.platform.verdict domain host path >>= fun
          | some r => f (domain, r)
          | none => do
            let r ← Run.createRoute domain.id spaceId (some (normalSegment host))
              (some (normalPath path))
            f (domain, r)) := by
  rw [providedRoute, bind_assoc]
  refine ((looks_lookups.resolveDomain _ _).goesOn_ok hdomain _).trans ?_
  rw [Run.resolveOrCreateRoute, bind_assoc, bind_assoc]
  refine goesOn_findRoute h calm domain host path fun found => ?_
  cases found <;> rfl

theorem goesOn_delete [Add τ] [Sub τ] [OfNat τ 0] [LE τ] [LT τ] [DecidableLE τ] [DecidableLT τ] :
    GoesOn w (o.delete name host path)
      (w.platform.verdict domain host path >>= fun
          | some r => o.deleteRoute r
          | none => throw (.notFound .route (describeRoute domain.name host path))) := by
  rw [delete_eq]
  exact goesOn_soughtRoute h calm hdomain fun found => o.deleteRoute found.2

theorem goesOn_unmap {application spaceId : String} {app : Ref}
    (ht : o.Targets w application spaceId app) :
    GoesOn w (o.unmap application name host path)
      (w.platform.verdict domain host path >>= fun
          | some r => do
            Run.removeRoute app.id r.id
            Run.emit (.onRouteOf "route.unmapped" r domain)
          | none => throw (.notFound .route (describeRoute domain.name host path))) := by
  rw [unmap_eq]
  refine ((looks_composed.requireSpace o).goesOn_ok ht.space _).trans ?_
  refine ((looks_lookups.resolveApplication _ _).goesOn_ok ht.application _).trans ?_
  exact goesOn_soughtRoute h calm hdomain _

theorem goesOn_create {space : String} {ref : Ref}
    (hspace : ((Run.resolveSpace o.organizationId space).run w).1 = .ok ref) :
    GoesOn w (o.create name space host path)
      (w.platform.verdict domain host path >>= fun
          | some r => created domain r
          | none => Run.createRoute domain.id ref.id (some (normalSegment host))
              (some (normalPath path)) >>= created domain) := by
  rw [create_eq]
  refine ((looks_lookups.resolveSpace _ _).goesOn_ok hspace _).trans ?_
  exact goesOn_providedRoute h calm hdomain ref.id fun found => created found.1 found.2

theorem goesOn_map {application spaceId : String} {app : Ref}
    (ht : o.Targets w application spaceId app) :
    GoesOn w (o.map application name host path)
      (w.platform.verdict domain host path >>= fun
          | some r => mapped app domain r
          | none => Run.createRoute domain.id spaceId (some (normalSegment host))
              (some (normalPath path)) >>= mapped app domain) := by
  rw [map_eq]
  refine ((looks_composed.requireSpace o).goesOn_ok ht.space _).trans ?_
  refine ((looks_lookups.resolveApplication _ _).goesOn_ok ht.application _).trans ?_
  exact goesOn_providedRoute h calm hdomain spaceId fun found => mapped app found.1 found.2

end Pursuit

section Outcomes

variable {x : Run (Store τ) τ α} {g : Option Route → Run (Store τ) τ α} {r : Route}
  (h : GoesOn w x (w.platform.verdict domain host path >>= g))
include h

theorem goesOn_none (hnone : w.platform.routesAt (.of domain.id host path) = []) :
    ∃ v, w.Listed v ∧ x.run w = (g none).run v := by
  rw [verdict, hnone] at h
  exact h w (.refl w)

theorem goesOn_one (hone : w.platform.routesAt (.of domain.id host path) = [r]) :
    ∃ v, w.Listed v ∧ x.run w = (g (some r)).run v := by
  rw [verdict, hone] at h
  exact h w (.refl w)

theorem listsTo_many (hmany : 2 ≤ (w.platform.routesAt (.of domain.id host path)).length) :
    w.ListsTo x (.error (.ambiguous .route (describeRoute domain.name host path)
      (w.platform.routesAt (.of domain.id host path)).length)) := by
  rw [verdict] at h
  generalize w.platform.routesAt (.of domain.id host path) = routes at h hmany ⊢
  match routes, hmany, h with
  | _ :: _ :: _, _, h => exact h w (.refl w)

end Outcomes

section Granted

variable {s : Store τ} {v : World (Store τ) τ} {r : Route} {spaceId : String}

/-- A route whose domain is stored and whose key is free is put under the next number. -/
theorem run_createRoute_free (hdomain : domain ∈ s.domains.items) (hnamed : domain.id ≠ "")
    (hfree : s.routesAt (.of domain.id host path) = []) (spaceId : String) :
    ∃ r, (Store.createRoute domain.id spaceId (some (normalSegment host))
        (some (normalPath path))).run s =
        (.ok r, { s with
          calls := s.calls ++ [.createRoute domain.id spaceId (some (normalSegment host))
            (some (normalPath path))]
          nextId := s.nextId + 1
          routes := s.routes.put r }) ∧
      r.key = .of domain.id host path ∧ r.spaceId = spaceId ∧ r.id = routeName s.nextId := by
  have hkey := RouteKey.of_normal domain.id host path
  have hknown : s.domains.contains domain.id = true :=
    Register.contains_iff.mpr ⟨domain, hdomain, rfl⟩
  have hnone : (s.routes.items.any fun r => r.key == .of domain.id (some (normalSegment host))
      (some (normalPath path))) = false := by
    rw [hkey, List.any_eq_false]
    exact List.filter_eq_nil_iff.mp hfree
  have hnonempty : domain.id.isEmpty = false := by simpa using hnamed
  refine ⟨s.newRoute domain.id spaceId (some (normalSegment host)) (some (normalPath path)) none, ?_,
    (key_newRoute ..).trans hkey, rfl, rfl⟩
  rw [run_createRoute]
  simp only [hknown, hnone, Bool.not_true, Bool.false_eq_true, if_false]
  rw [run_addRoute, hnonempty, if_neg Bool.false_ne_true]
  rfl

/-- On a sound platform the route is put after all others, under an id that none of them has. -/
theorem run_createRoute_new (h : s.Sound) (hdomain : domain ∈ s.domains.items)
    (hfree : s.routesAt (.of domain.id host path) = []) (spaceId : String) :
    ∃ r, (Store.createRoute domain.id spaceId (some (normalSegment host))
        (some (normalPath path))).run s =
        (.ok r, { s with
          calls := s.calls ++ [.createRoute domain.id spaceId (some (normalSegment host))
            (some (normalPath path))]
          nextId := s.nextId + 1
          routes := s.routes.put r }) ∧
      r.key = .of domain.id host path ∧ r.spaceId = spaceId ∧
      (∀ q ∈ s.routes.items, q.id ≠ r.id) ∧ (s.routes.put r).items = s.routes.items ++ [r] := by
  obtain ⟨r, hrun, hkey, hspace, hid⟩ :=
    run_createRoute_free hdomain (h.named domain hdomain) hfree spaceId
  -- The new id is numbered after every id that is stored.
  have hnew : ∀ q ∈ s.routes.items, q.id ≠ r.id := by
    intro q hq hsame
    obtain ⟨number, hlt, hnumber⟩ := h.numbered q hq
    exact hlt.ne (routeName_injective (hnumber.symm.trans (hsame.trans hid)))
  exact ⟨r, hrun, hkey, hspace, hnew, Register.put_new hnew⟩

/-- A route whose domain is stored and whose key is free is created. -/
theorem createRoute_granted (h : s.Sound) (hdomain : domain ∈ s.domains.items)
    (hfree : s.routesAt (.of domain.id host path) = []) (spaceId : String) :
    ∃ r t, (Store.createRoute domain.id spaceId (some (normalSegment host))
        (some (normalPath path))).run s = (.ok r, t) ∧
      r.key = .of domain.id host path ∧ r.spaceId = spaceId ∧
      t.creations = s.creations ++ [.of domain.id host path] ∧
      t.routes.items = s.routes.items ++ [r] := by
  obtain ⟨r, hrun, hkey, hspace, -, hitems⟩ := run_createRoute_new h hdomain hfree spaceId
  refine ⟨r, _, hrun, hkey, hspace, ?_, hitems⟩
  simp only [creations, List.filterMap_append, ← RouteKey.of_normal domain.id host path]
  rfl

variable {x : Run (Store τ) τ Route} {rest : Route → Run (Store τ) τ Route}

/-- What has a route created and then keeps to it, creates it. -/
theorem creates_of (h : w.platform.Sound) (hdomain : domain ∈ w.platform.domains.items)
    (hfree : w.platform.routesAt (.of domain.id host path) = [])
    (hrest : ∀ r u, World.Reuses u (rest r) r)
    (hx : ∃ v, w.Listed v ∧ x.run w = (Run.createRoute domain.id spaceId
      (some (normalSegment host)) (some (normalPath path)) >>= rest).run v) :
    w.Creates x (.of domain.id host path) spaceId := by
  obtain ⟨v, hv, hrun⟩ := hx
  have hasked := hv.creations
  obtain ⟨requests, -, rfl⟩ := hv
  obtain ⟨r, t, hcreated, hkey, hspace, hcreations, hroutes⟩ := createRoute_granted
    (s := (w.logged requests).platform) (h.of_same rfl rfl rfl rfl (Nat.le_refl _)) hdomain hfree
    spaceId
  have hmade : (Run.createRoute domain.id spaceId (some (normalSegment host))
      (some (normalPath path))).run (w.logged requests) =
      (.ok r, { w.logged requests with platform := t }) := run_onPlatform hcreated
  obtain ⟨u, hu, hsame, hkept⟩ := hrest r { w.logged requests with platform := t }
  refine ⟨r, u, ?_, hkey, hspace, ?_, ?_⟩
  · rw [hrun, run_bind_ok hmade, hu]
  · rw [hsame, ← hasked]
    exact hcreations
  · rw [hkept]
    exact hroutes

/-- What keeps to a route that is there, reuses it. -/
theorem reuses_of (hrest : ∀ r u, World.Reuses u (rest r) r)
    (hx : ∃ v, w.Listed v ∧ x.run w = (rest r).run v) : w.Reuses x r := by
  obtain ⟨v, hv, hrun⟩ := hx
  obtain ⟨u, hu, hsame, hkept⟩ := hrest r v
  refine ⟨u, hrun.trans hu, hsame.trans hv.creations, hkept.trans ?_⟩
  obtain ⟨requests, -, rfl⟩ := hv
  rfl

theorem reuses_created (r : Route) (u : World (Store τ) τ) : u.Reuses (created domain r) r :=
  ⟨_, rfl, rfl, rfl⟩

theorem reuses_mapped (app : Ref) (r : Route) (u : World (Store τ) τ) :
    u.Reuses (mapped app domain r) r := by
  refine ⟨_, rfl, ?_, routes_associateRoute app.id r.id u.platform⟩
  exact creations_after (q := .associateRoute app.id r.id) rfl u.platform

end Granted

section Deleted

variable [Add τ] [Sub τ] [OfNat τ 0] [LE τ] [LT τ] [DecidableLE τ] [DecidableLT τ]

/-- Waiting for a job asks for no deletion. -/
theorem preserves_deletions_awaitJob (p : Poller τ) (job : Job) :
    Preserves deletions (p.awaitJob (σ := Store τ) job) := by
  refine preserves_composed.awaitJob (fun event _ => preserves_emit event) preserves_sleep p ?_
  refine preserves_composed.bind (x := modify _) (fun _ => rfl) fun _ =>
    Preserves.onPlatform fun s => ?_
  change ((Store.getJob job.id).run s).2.calls.filterMap Request.deletion? = _
  rw [calls_getJob, List.filterMap_append]
  exact List.append_nil _

/-- A route that is stored has its deletion started, once. -/
theorem deleteRoute_started {r : Route} {v : World (Store τ) τ} (o : Orchestrator τ)
    (hr : r ∈ v.platform.routes.items) :
    (Store.deleteRoute r.id).run v.platform =
      (.ok ⟨jobName v.platform.nextId, .queued, none⟩, v.platform.deleting r.id) ∧
    ((o.deleteRoute r).run v).2.platform.deletions = v.platform.deletions ++ [r.id] := by
  have hrun := run_deleteRoute (Register.contains_iff.mpr ⟨r, hr, rfl⟩)
  have hasked : (Run.deleteRoute r.id).run v =
      (.ok ⟨jobName v.platform.nextId, .queued, none⟩,
        { v with platform := v.platform.deleting r.id }) := run_onPlatform hrun
  have hwait := preserves_composed.bind (preserves_deletions_awaitJob o.poller
    ⟨jobName v.platform.nextId, .queued, none⟩) fun _ => preserves_emit (.onRoute "route.deleted" r)
  refine ⟨hrun, ?_⟩
  rw [Orchestrator.deleteRoute, run_bind_ok hasked]
  refine (hwait _).trans ?_
  exact List.filterMap_append

end Deleted

section Verdicts

variable [Add τ] [Sub τ] [OfNat τ 0] [LE τ] [LT τ] [DecidableLE τ] [DecidableLT τ]
  (h : w.Patient) (calm : w.platform.listFailures = [])
  (hdomain : ((Run.resolveDomain o.organizationId name).run w).1 = .ok domain)
include h calm hdomain

theorem noRoute (hsound : w.platform.Sound)
    (hnone : w.platform.routesAt (.of domain.id host path) = []) :
    NoRoute o w name domain host path where
  check := goesOn_none (goesOn_check h calm hdomain host path) hnone
  delete := goesOn_none (goesOn_delete h calm hdomain) hnone
  unmap _ _ _ ht := goesOn_none (goesOn_unmap h calm hdomain ht) hnone
  create _ _ hspace := creates_of hsound (resolveDomain_stored (Prod.ext hdomain rfl)) hnone
    reuses_created (goesOn_none (goesOn_create h calm hdomain hspace) hnone)
  map _ _ app ht := creates_of hsound (resolveDomain_stored (Prod.ext hdomain rfl)) hnone
    (reuses_mapped app) (goesOn_none (goesOn_map h calm hdomain ht) hnone)

theorem oneRoute (hsound : w.platform.Sound) {r : Route}
    (hone : w.platform.routesAt (.of domain.id host path) = [r]) :
    OneRoute o w name host path r where
  check := goesOn_one (goesOn_check h calm hdomain host path) hone
  create _ _ hspace := reuses_of reuses_created
    (goesOn_one (goesOn_create h calm hdomain hspace) hone)
  map _ _ app ht := reuses_of (reuses_mapped app) (goesOn_one (goesOn_map h calm hdomain ht) hone)
  delete := by
    obtain ⟨v, hv, hrun⟩ := goesOn_one (goesOn_delete h calm hdomain) hone
    have hdeletions := hv.deletions
    have hstored : r ∈ w.platform.routes.items :=
      List.mem_of_mem_filter (hone ▸ List.mem_singleton_self r)
    refine ⟨v, hv, hrun, ?_⟩
    rw [hrun, ← hdeletions]
    obtain ⟨requests, -, rfl⟩ := hv
    exact deleteRoute_started o hstored
  unmap application spaceId app ht := by
    obtain ⟨v, hv, hrun⟩ := goesOn_one (goesOn_unmap h calm hdomain ht) hone
    refine ⟨_, hrun, ?_⟩
    obtain ⟨requests, -, rfl⟩ := hv
    rw [← hsound.mappedOnce.erase_eq_filter]
    rfl

theorem manyRoutes (hmany : 2 ≤ (w.platform.routesAt (.of domain.id host path)).length) :
    ManyRoutes o w name domain host path
      (w.platform.routesAt (.of domain.id host path)).length where
  check := listsTo_many (goesOn_check h calm hdomain host path) hmany
  delete := listsTo_many (goesOn_delete h calm hdomain) hmany
  unmap _ _ _ ht := listsTo_many (goesOn_unmap h calm hdomain ht) hmany
  create _ _ hspace := listsTo_many (goesOn_create h calm hdomain hspace) hmany
  map _ _ _ ht := listsTo_many (goesOn_map h calm hdomain ht) hmany

end Verdicts

end Orchestrator

/-- All operations on one route agree on whether it is there. On any platform that can be reached
and that no failure is set up for, whatever its pages and however loosely it filters, they go by the
routes that are stored under the key that is spelled: if there is none, they say so or have it
created; if there is one, they act on that one; if there are several, they refuse, and change
nothing. -/
theorem Orchestrator.existence_agreed {τ : Type} [Add τ] [Sub τ] [OfNat τ 0] [LE τ] [LT τ]
    [DecidableLE τ] [DecidableLT τ] (o : Orchestrator τ) {w : World (Store τ) τ} {name : String}
    {domain : Domain} (hreached : w.platform.Reachable) (calm : w.platform.listFailures = [])
    (hpatience : w.platform.extent < w.patience)
    (hdomain : ((Run.resolveDomain o.organizationId name).run w).1 = .ok domain)
    (host path : Option String) :
    (w.platform.routesAt (.of domain.id host path) = [] →
      NoRoute o w name domain host path) ∧
    (∀ r, w.platform.routesAt (.of domain.id host path) = [r] →
      OneRoute o w name host path r) ∧
    (2 ≤ (w.platform.routesAt (.of domain.id host path)).length →
      ManyRoutes o w name domain host path
        (w.platform.routesAt (.of domain.id host path)).length) := by
  have hsound := hreached.sound
  have hpatient : w.Patient := ⟨hsound.paged, hpatience⟩
  exact ⟨noRoute hpatient calm hdomain hsound, fun r => oneRoute hpatient calm hdomain hsound,
    manyRoutes hpatient calm hdomain⟩

/-- A platform with pages of one route, whose filters match loosely. Two of its routes have neither
host nor path. -/
def crowdedWorld : World (Store ℚ) ℚ where
  platform := ({ pageSize := 1, substringFilters := true } : Store ℚ).filled
    [.organization "org", .space "org-1" "space", .sharedDomain "example.com",
      .application "space-2" "app",
      .route "shared-domain-3" "space-2" (some "api-v2") (some "/v1") none,
      .route "shared-domain-3" "space-2" none none none,
      .route "shared-domain-3" "space-2" (some " ") none none]
  clock := 0
  fetchCost := 1
  cancelAt := none
  sleeps := []
  events := []
  patience := 9

def crowdedSpace : Orchestrator ℚ := ⟨"org-1", some "space-2", ⟨1, 5⟩⟩

theorem Orchestrator.existence_agreed_crowded :
    crowdedWorld.platform.Reachable ∧
    crowdedWorld.Creates (crowdedSpace.create "example.com" "space" (some " api") (some "v1"))
      ⟨"shared-domain-3", "api", "/v1"⟩ "space-2" ∧
    crowdedWorld.ListsTo (crowdedSpace.check "example.com" (some "api-v2") (some " v1"))
      (.ok true) ∧
    crowdedWorld.ListsTo (crowdedSpace.unmap "app" "example.com" none (some " "))
      (.error (.ambiguous .route "example.com" 2)) := by
  have hreached : crowdedWorld.platform.Reachable :=
    Store.Reachable.filled (.new 1 true _ rfl) _
  have hdomain : ((Run.resolveDomain crowdedSpace.organizationId "example.com").run
      crowdedWorld).1 = .ok ⟨"shared-domain-3", "example.com", .shared, none⟩ := rfl
  have hspace : ((Run.resolveSpace crowdedSpace.organizationId "space").run crowdedWorld).1 =
      .ok (.of "space-2" "space") := rfl
  have htargets : crowdedSpace.Targets crowdedWorld "app" "space-2" (.of "app-4" "app") :=
    ⟨rfl, rfl⟩
  have hagreed := existence_agreed crowdedSpace hreached rfl (by decide +kernel) hdomain
  obtain ⟨hnone, -, -⟩ := hagreed (some " api") (some "v1")
  obtain ⟨-, hone, -⟩ := hagreed (some "api-v2") (some " v1")
  obtain ⟨-, -, hmany⟩ := hagreed none (some " ")
  refine ⟨hreached, ?_, ?_, ?_⟩
  · exact (hnone rfl).create "space" _ hspace
  · exact (hone ⟨"route-5", "shared-domain-3", "space-2", "api-v2", "/v1", none⟩ rfl).check
  · exact (hmany (by decide +kernel)).unmap "app" _ _ htargets

end PlatformRoutes
