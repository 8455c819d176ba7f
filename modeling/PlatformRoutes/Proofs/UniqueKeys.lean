import PlatformRoutes.Proofs.Deletion
import PlatformRoutes.Proofs.Requests
import PlatformRoutes.Proofs.Segment

namespace PlatformRoutes

/-- The key of the route that a request asks to be created. -/
def Request.key? : Request → Option RouteKey
  | .createRoute domainId _ host path => some (.of domainId host path)
  | _ => none

namespace Store

variable {τ : Type} {s s' : Store τ} {r : Route} {key : RouteKey}

/-- No two routes of one key are stored. -/
def KeysDistinct (s : Store τ) : Prop := (s.routes.items.map Route.key).Nodup

theorem keysDistinct_iff : s.KeysDistinct ↔
    ∀ r ∈ s.routes.items, ∀ q ∈ s.routes.items, r.key = q.key → r = q :=
  List.nodup_map_iff_inj_on (s.routes.distinct.of_map _)

/-- A request that had a route created. None of its key was stored before. -/
structure Granted (s : Store τ) (q : Request) (r : Route) : Prop where
  asked : q.key? = some r.key
  fresh : ∀ q ∈ s.routes.items, q.key ≠ r.key
  stored : (q.after s).routes = s.routes.put r

/-- The route that is stored when a request for it is granted. -/
def newRoute (s : Store τ) (domainId spaceId : String) (host path service : Option String) : Route :=
  .of ("route" ++ "-" ++ toString s.nextId) domainId spaceId host path service

theorem key_newRoute (s : Store τ) (domainId spaceId : String) (host path service : Option String) :
    (s.newRoute domainId spaceId host path service).key = .of domainId host path := rfl

theorem run_addRoute (domainId spaceId : String) (host path service : Option String) (s : Store τ) :
    (addRoute domainId spaceId host path service).run s =
      if domainId.isEmpty then
        (.error (.invalid [⟨[.field "domain_id"], .emptyText⟩]), { s with nextId := s.nextId + 1 })
      else (.ok (s.newRoute domainId spaceId host path service),
        { s with
          nextId := s.nextId + 1
          routes := s.routes.put (s.newRoute domainId spaceId host path service) }) := by
  rw [addRoute, run_bind_ok (x := mint "route") (t := { s with nextId := s.nextId + 1 })
    (a := "route" ++ "-" ++ toString s.nextId) rfl]
  dsimp only
  by_cases hd : domainId.isEmpty = true
  · rw [if_pos hd, if_pos hd]
    exact run_bind_error rfl
  · rw [if_neg hd, if_neg hd]
    rfl

/-- A request for a route is granted if its domain is known and no route of its key is stored. -/
theorem run_createRoute (domainId spaceId : String) (host path : Option String) (s : Store τ) :
    (createRoute domainId spaceId host path).run s =
      let asked := { s with calls := s.calls ++ [.createRoute domainId spaceId host path] }
      if !s.domains.contains domainId then (.error invalidDomain, asked)
      else if s.routes.items.any fun r => r.key == .of domainId host path then
        (.error hostTaken, asked)
      else (addRoute domainId spaceId host path none).run asked := by
  rw [createRoute, run_log_get]
  dsimp only
  by_cases hd : (!s.domains.contains domainId) = true
  · rw [if_pos hd, if_pos hd]
    exact run_bind_error rfl
  · rw [if_neg hd, if_neg hd]
    by_cases ht : (s.routes.items.any fun r => r.key == .of domainId host path) = true
    · rw [if_pos ht, if_pos ht]
      exact run_bind_error rfl
    · rw [if_neg ht, if_neg ht]

/-- A request for a route either is granted or leaves the routes as they are. -/
theorem createRoute_cases (domainId spaceId : String) (host path : Option String) (s : Store τ) :
    (∃ r t, (createRoute domainId spaceId host path).run s = (.ok r, t) ∧
      r.key = .of domainId host path ∧ (∀ q ∈ s.routes.items, q.key ≠ r.key) ∧
      t.routes = s.routes.put r) ∨
    ∃ f t, (createRoute domainId spaceId host path).run s = (.error f, t) ∧ t.routes = s.routes := by
  rw [run_createRoute]
  dsimp only
  split
  · exact .inr ⟨_, _, rfl, rfl⟩
  · split
    · exact .inr ⟨_, _, rfl, rfl⟩
    · rename_i hfree
      rw [run_addRoute]
      split
      · exact .inr ⟨_, _, rfl, rfl⟩
      · refine .inl ⟨_, _, rfl, rfl, fun q hq hkey => hfree ?_, rfl⟩
        exact List.any_eq_true.mpr ⟨q, hq, by rw [hkey]; exact beq_self_eq_true _⟩

theorem routes_dropRoute_subset (s : Store τ) (routeId : String) :
    (s.dropRoute routeId).routes.items ⊆ s.routes.items := List.filter_sublist.subset

theorem routes_look_subset (s : Store τ) (t : JobTrack) :
    (s.look t).routes.items ⊆ s.routes.items := by
  unfold look
  split
  · cases t.route with
    | none => exact List.Subset.refl _
    | some routeId => exact routes_dropRoute_subset _ routeId
  · exact List.Subset.refl _

theorem routes_getJob_subset (jobId : String) (s : Store τ) :
    ((getJob jobId).run s).2.routes.items ⊆ s.routes.items := by
  cases h : s.jobs.find? jobId with
  | none =>
    rw [run_getJob_unknown h]
    exact List.Subset.refl _
  | some t =>
    rw [run_getJob h]
    exact routes_look_subset _ t

theorem routes_deleteRoute (routeId : String) (s : Store τ) :
    ((deleteRoute routeId).run s).2.routes = s.routes := by
  cases h : s.routes.contains routeId with
  | true => rw [run_deleteRoute h, deleting]
  | false => rw [run_deleteRoute_unknown h]

theorem run_associateRoute (applicationId routeId : String) (s : Store τ) :
    (associateRoute applicationId routeId).run s =
      let asked := { s with calls := s.calls ++ [.associateRoute applicationId routeId] }
      (.ok (), if s.associations.contains (applicationId, routeId) then asked
        else { asked with associations := s.associations ++ [(applicationId, routeId)] }) := rfl

theorem routes_associateRoute (applicationId routeId : String) (s : Store τ) :
    ((associateRoute applicationId routeId).run s).2.routes = s.routes := by
  rw [run_associateRoute]
  dsimp only
  split <;> rfl

/-- Only a request for a route adds to the routes. -/
theorem routes_after_subset {q : Request} (h : q.key? = none) (s : Store τ) :
    (q.after s).routes.items ⊆ s.routes.items := by
  cases q with
  | createRoute domainId spaceId host path => cases h
  | listResources resource filters page =>
    rw [Request.after, Request.perform, run_discarded]
    exact List.Subset.refl _
  | deleteRoute routeId =>
    rw [Request.after, Request.perform, run_discarded]
    exact routes_deleteRoute routeId s ▸ List.Subset.refl _
  | getJob jobId =>
    rw [Request.after, Request.perform, run_discarded]
    exact routes_getJob_subset jobId s
  | associateRoute applicationId routeId =>
    exact routes_associateRoute applicationId routeId s ▸ List.Subset.refl _
  | removeRoute applicationId routeId => exact List.Subset.refl _

/-- Whether a request has a route of some key created. -/
def grants (s : Store τ) (key : RouteKey) (q : Request) : Bool :=
  q.key? == some key && (q.perform.run s).1.isOk

/-- A request creates a route of a key that none had, or it adds nothing to the routes. -/
theorem after_cases (q : Request) (s : Store τ) :
    (∃ r, Granted s q r ∧ ∀ key, s.grants key q = true ↔ key = r.key) ∨
      (∀ key, s.grants key q = false) ∧ (q.after s).routes.items ⊆ s.routes.items := by
  cases hq : q.key? with
  | none => exact .inr ⟨fun key => by simp [grants, hq], routes_after_subset hq s⟩
  | some asked =>
    cases q with
    | createRoute domainId spaceId host path =>
      obtain ⟨r, t, hrun, hkey, hfresh, hstored⟩ | ⟨f, t, hrun, hsame⟩ :=
        createRoute_cases domainId spaceId host path s
      · have hperform : ((Request.createRoute domainId spaceId host path).perform.run s) =
            (.ok (), t) := run_bind_ok hrun
        refine .inl ⟨r, ⟨by rw [hkey]; rfl, hfresh, ?_⟩, fun key => ?_⟩
        · rw [Request.after, hperform]
          exact hstored
        · have hasked : (Request.createRoute domainId spaceId host path).key? = some r.key := by
            rw [hkey]
            rfl
          rw [grants, hperform, hasked]
          change (some r.key == some key && true) = true ↔ key = r.key
          rw [Bool.and_true, beq_iff_eq, Option.some_inj]
          exact eq_comm
      · have hperform : ((Request.createRoute domainId spaceId host path).perform.run s) =
            (.error f, t) := run_bind_error hrun
        refine .inr ⟨fun key => ?_, ?_⟩
        · rw [grants, hperform]
          exact Bool.and_false _
        · rw [Request.after, hperform]
          exact hsame ▸ List.Subset.refl _
    | _ => cases hq

/-- How many of some requests have a route of some key created. -/
def grantCount (key : RouteKey) : Store τ → List Request → ℕ
  | _, [] => 0
  | s, q :: rest => (if s.grants key q then 1 else 0) + grantCount key (q.after s) rest

/-- No request of some takes a route of some kind away. -/
def Keeps (p : Route → Prop) : Store τ → List Request → Prop
  | _, [] => True
  | s, q :: rest =>
    (∀ r ∈ s.routes.items, p r → r ∈ (q.after s).routes.items) ∧ Keeps p (q.after s) rest

theorem keysDistinct_after (h : s.KeysDistinct) (q : Request) : (q.after s).KeysDistinct := by
  rw [keysDistinct_iff] at h ⊢
  obtain ⟨new, hnew, -⟩ | ⟨-, hsub⟩ := after_cases q s
  · rw [hnew.stored]
    intro r hr r' hr' hkey
    rcases Register.mem_put hr with rfl | hold <;> rcases Register.mem_put hr' with rfl | hold'
    · rfl
    · exact absurd hkey.symm (hnew.fresh r' hold')
    · exact absurd hkey (hnew.fresh r hold)
    · exact h r hold r' hold' hkey
  · exact fun r hr r' hr' => h r (hsub hr) r' (hsub hr')

theorem keysDistinct_replay (h : s.KeysDistinct) (requests : List Request) :
    (replay s requests).KeysDistinct := by
  induction requests generalizing s with
  | nil => exact h
  | cons q rest ih => exact ih (keysDistinct_after h q)

/-- A route that no request takes away is still stored after all of them. -/
theorem Keeps.mem_replay {p : Route → Prop} {requests : List Request} (h : s.Keeps p requests)
    (hp : p r) (hr : r ∈ s.routes.items) : r ∈ (replay s requests).routes.items := by
  induction requests generalizing s with
  | nil => exact hr
  | cons q rest ih => exact ih h.2 (h.1 r hr hp)

/-- While a route of a key is stored, no further one is created. -/
theorem grantCount_stored {requests : List Request} (h : s.Keeps (fun r => r.key = key) requests)
    (hr : r ∈ s.routes.items) (hkey : r.key = key) : s.grantCount key requests = 0 := by
  induction requests generalizing s with
  | nil => rfl
  | cons q rest ih =>
    have hfirst : s.grants key q = false := by
      obtain ⟨new, hnew, hgrants⟩ | ⟨hnone, -⟩ := after_cases q s
      · rw [Bool.eq_false_iff]
        intro hgranted
        apply hnew.fresh r hr
        exact hkey.trans ((hgrants key).mp hgranted)
      · exact hnone key
    simp [grantCount, hfirst, ih h.2 (h.1 r hr hkey)]

/-- While no route of a key is taken away, at most one is created. -/
theorem grantCount_le_one {requests : List Request}
    (h : s.Keeps (fun r => r.key = key) requests) : s.grantCount key requests ≤ 1 := by
  induction requests generalizing s with
  | nil => exact Nat.zero_le 1
  | cons q rest ih =>
    cases hgranted : s.grants key q with
    | false => simpa [grantCount, hgranted] using ih h.2
    | true =>
      obtain ⟨new, hnew, hgrants⟩ | ⟨hnone, -⟩ := after_cases q s
      · have hstored : new ∈ (q.after s).routes.items := by
          rw [hnew.stored]
          exact Register.self_mem_put
        have hrest := grantCount_stored h.2 hstored ((hgrants key).mp hgranted).symm
        simp [grantCount, hgranted, hrest]
      · simp [hnone key] at hgranted

theorem calls_after (q : Request) (s : Store τ) : (q.after s).calls = s.calls ++ [q] := by
  cases q with
  | createRoute domainId spaceId host path =>
    rw [Request.after, Request.perform, run_discarded]
    change ((createRoute domainId spaceId host path).run s).2.calls = _
    rw [run_createRoute]
    dsimp only
    split
    · rfl
    · split
      · rfl
      · rw [run_addRoute]
        split <;> rfl
  | listResources resource filters page =>
    rw [Request.after, Request.perform, run_discarded]
    rfl
  | deleteRoute routeId =>
    rw [Request.after, Request.perform, run_discarded]
    change ((deleteRoute routeId).run s).2.calls = _
    cases h : s.routes.contains routeId with
    | true => rw [run_deleteRoute h, deleting]
    | false => rw [run_deleteRoute_unknown h]
  | getJob jobId =>
    rw [Request.after, Request.perform, run_discarded]
    exact calls_getJob jobId s
  | associateRoute applicationId routeId =>
    change (if _ then _ else _ : Store τ).calls = _
    split <;> rfl
  | removeRoute applicationId routeId => rfl

theorem calls_replay (requests : List Request) (s : Store τ) :
    (replay s requests).calls = s.calls ++ requests := by
  induction requests generalizing s with
  | nil => exact (List.append_nil _).symm
  | cons q rest ih =>
    change (replay (q.after s) rest).calls = _
    rw [ih, calls_after, List.append_assoc]
    rfl

/-- The requests that reached a platform from one state on to a later one. -/
def requestsSince (s s' : Store τ) : List Request := s'.calls.drop s.calls.length

theorem requestsSince_replay (s : Store τ) (requests : List Request) :
    requestsSince s (replay s requests) = requests := by
  rw [requestsSince, calls_replay, List.drop_left]

/-- The record of the requests tells all that has happened to a platform. -/
theorem replay_requestsSince {requests : List Request} (h : s' = replay s requests) :
    replay s (requestsSince s s') = s' := by
  rw [h, requestsSince_replay]

theorem mem_listing_routes {filters : Filters} {all : List Route}
    (h : s.listing .routes filters = .ok all) (hr : r ∈ all) :
    r ∈ s.routes.items ∧ s.routeFits filters r = true := by
  cases select_of_listing h
  exact List.mem_filter.mp hr

variable {w v : World (Store τ) τ} {domain : Domain} {host path : Option String}

/-- A route that is found is stored under the key that is looked for. -/
theorem findRoute_ok (h : (Run.findRoute domain host path).run w = (.ok (some r), v)) :
    r ∈ w.platform.routes.items ∧ r.key = .of domain.id host path := by
  obtain ⟨listed, u, hlisted, h⟩ := run_bind_eq_ok h
  obtain ⟨all, hall, hsub⟩ := mem_of_listAll hlisted
  split at h
  · cases h
  · rename_i found hfound
    cases h
    have hr : r ∈ listed.filter fun r => r.fits host path := by
      rw [hfound]
      exact List.mem_singleton_self r
    obtain ⟨hlist, hfits⟩ := List.mem_filter.mp hr
    obtain ⟨hstored, hpasses⟩ := mem_listing_routes hall (hsub hlist)
    simp only [routeFits, Bool.and_eq_true] at hpasses
    have hdomain : r.domainId = domain.id := by
      have := hpasses.1.1.1.1
      simpa [passes, Run.routeFilters, Filters.get?] using this
    simp only [Route.fits, Bool.and_eq_true, beq_iff_eq] at hfits
    refine ⟨hstored, ?_⟩
    rw [Route.key, RouteKey.of, hdomain, hfits.1, hfits.2]
  · cases h

/-- The route that is reused or created has the key that is asked for. A route is created only if
none of its key is stored. -/
theorem resolveOrCreateRoute_ok {spaceId : String}
    (h : (Run.resolveOrCreateRoute domain host path spaceId).run w = (.ok r, v)) :
    r.key = .of domain.id host path ∧ r ∈ v.platform.routes.items ∧
      (r ∈ w.platform.routes.items ∨ ∀ q ∈ w.platform.routes.items, q.key ≠ r.key) := by
  obtain ⟨found, u, hfound, h⟩ := run_bind_eq_ok h
  obtain ⟨requests, hu⟩ := (looks_lookups.findRoute domain host path).run_ok hfound
  cases found with
  | some route =>
    cases h
    obtain ⟨hstored, hkey⟩ := findRoute_ok hfound
    subst hu
    exact ⟨hkey, hstored, .inl hstored⟩
  | none =>
    obtain ⟨route, t, hrun, hkey, hfresh, hroutes⟩ | ⟨f, t, hrun, -⟩ :=
      createRoute_cases domain.id spaceId (some (normalSegment host)) (some (normalPath path))
        u.platform
    · have hcreated := (run_onPlatform hrun).symm.trans h
      cases hcreated
      refine ⟨hkey.trans (RouteKey.of_normal _ host path), ?_, .inr ?_⟩
      · change r ∈ t.routes.items
        rw [hroutes]
        exact Register.self_mem_put
      · subst hu
        exact hfresh
    · have hrefused := (run_onPlatform hrun).symm.trans h
      cases hrefused

/-- What is said of a route that an operation answers with: its key is the one asked for, it is
stored, and it was created only if none of its key was stored before. -/
structure Provided (w : World (Store τ) τ) (organizationId domain : String)
    (host path : Option String) (r : Route) (after : Store τ) : Prop where
  key : ((Run.resolveDomain organizationId domain).run w).1.map
    (fun resolved => RouteKey.of resolved.id host path) = .ok r.key
  stored : r ∈ after.routes.items
  origin : r ∈ w.platform.routes.items ∨ ∀ q ∈ w.platform.routes.items, q.key ≠ r.key

/-- The lookups before a domain's leave its outcome alone. -/
theorem provided_of_lookups {organizationId name spaceId : String} {resolved : Domain}
    {before : List Request} {u : World (Store τ) τ}
    (hdomain : (Run.resolveDomain organizationId name).run (w.logged before) = (.ok resolved, u))
    (hroute : (Run.resolveOrCreateRoute resolved host path spaceId).run u = (.ok r, v)) :
    Provided w organizationId name host path r v.platform := by
  have hlooks := looks_lookups.resolveDomain (τ := τ) organizationId name
  obtain ⟨requests, rfl⟩ := hlooks.run_ok hdomain
  have houtcome := hlooks.outcome_logged w before
  rw [hdomain] at houtcome
  obtain ⟨hkey, hstored, horigin⟩ := resolveOrCreateRoute_ok hroute
  refine ⟨?_, hstored, horigin⟩
  rw [← houtcome, hkey]
  rfl

theorem create_ok {o : Orchestrator τ} {name space : String}
    (h : (o.create name space host path).run w = (.ok r, v)) :
    Provided w o.organizationId name host path r v.platform := by
  obtain ⟨spaceRef, _, hspace, h⟩ := run_bind_eq_ok h
  obtain ⟨requests, rfl⟩ := (looks_lookups.resolveSpace _ _).run_ok hspace
  obtain ⟨resolved, u, hdomain, h⟩ := run_bind_eq_ok h
  obtain ⟨route, u', hroute, h⟩ := run_bind_eq_ok h
  have hprovided := provided_of_lookups hdomain hroute
  cases h
  exact hprovided

theorem map_ok {o : Orchestrator τ} {application name : String}
    (h : (o.map application name host path).run w = (.ok r, v)) :
    Provided w o.organizationId name host path r v.platform := by
  obtain ⟨spaceId, _, hspace, h⟩ := run_bind_eq_ok h
  obtain ⟨before, rfl⟩ := (looks_lookups.requireSpace o).run_ok hspace
  obtain ⟨app, _, happ, h⟩ := run_bind_eq_ok h
  obtain ⟨later, rfl⟩ := (looks_lookups.resolveApplication _ _).run_ok happ
  rw [logged_logged] at h
  obtain ⟨resolved, u, hdomain, h⟩ := run_bind_eq_ok h
  obtain ⟨route, u', hroute, h⟩ := run_bind_eq_ok h
  obtain ⟨_, u'', hassociate, h⟩ := run_bind_eq_ok h
  have hprovided := provided_of_lookups hdomain hroute
  have hroutes : u''.platform.routes = u'.platform.routes := by
    have hu := congrArg (fun out => out.2.platform.routes) hassociate
    exact hu.symm.trans (routes_associateRoute app.id route.id u'.platform)
  cases h
  exact ⟨hprovided.key, hroutes ▸ hprovided.stored, hprovided.origin⟩

end Store

namespace Turn

variable {τ : Type} [Add τ] [Sub τ] [OfNat τ 0] [LE τ] [LT τ] [DecidableLE τ] [DecidableLT τ]
  {t : Turn τ} {s : Store τ} {r : Route}

/-- The key of the route that a turn is to provide, if it is to provide one and the domain is
found. -/
def key? (t : Turn τ) (s : Store τ) : Option RouteKey :=
  match t.work with
  | .create domain _ host path | .map _ domain host path =>
    (((Run.resolveDomain t.orchestrator.organizationId domain).run (t.surroundings.around s)).1.map
      fun resolved => RouteKey.of resolved.id host path).toOption
  | _ => none

/-- Only the turns that are to provide a route answer with one. -/
theorem answer_route (h : t.answer s = .ok (.route (some r))) :
    t.key? s = some r.key ∧ r ∈ (t.after s).routes.items ∧
      (r ∈ s.routes.items ∨ ∀ q ∈ s.routes.items, q.key ≠ r.key) := by
  obtain ⟨o, work, surroundings⟩ := t
  have provided (domain : String) (host path : Option String)
      (hp : Store.Provided (surroundings.around s) o.organizationId domain host path r
        (Turn.after ⟨o, work, surroundings⟩ s)) :
      (((Run.resolveDomain o.organizationId domain).run (surroundings.around s)).1.map
        fun resolved => RouteKey.of resolved.id host path).toOption = some r.key ∧
      r ∈ (Turn.after ⟨o, work, surroundings⟩ s).routes.items ∧
      (r ∈ s.routes.items ∨ ∀ q ∈ s.routes.items, q.key ≠ r.key) := by
    refine ⟨?_, hp.stored, hp.origin⟩
    rw [hp.key]
    rfl
  cases work with
  | create domain space host path =>
    obtain ⟨a, v, hrun, hreply, hv⟩ := run_return_eq_ok h
    cases hreply
    refine provided domain host path ?_
    have hafter : Turn.after ⟨o, .create domain space host path, surroundings⟩ s = v.platform :=
      congrArg World.platform hv
    rw [hafter]
    exact Store.create_ok hrun
  | map application domain host path =>
    obtain ⟨a, v, hrun, hreply, hv⟩ := run_return_eq_ok h
    cases hreply
    refine provided domain host path ?_
    have hafter : Turn.after ⟨o, .map application domain host path, surroundings⟩ s = v.platform :=
      congrArg World.platform hv
    rw [hafter]
    exact Store.map_ok hrun
  | check | unmap | delete | list | deleteOrphaned =>
    obtain ⟨_, _, _, hreply, _⟩ := run_return_eq_ok h
    cases hreply

theorem keysDistinct_afterAll (h : s.KeysDistinct) (turns : List (Turn τ)) :
    (afterAll s turns).KeysDistinct := by
  obtain ⟨requests, hreplay⟩ := afterAll_eq_replay turns s
  rw [hreplay]
  exact Store.keysDistinct_replay h requests

theorem replay_afterAll (s : Store τ) (turns : List (Turn τ)) :
    replay s (Store.requestsSince s (afterAll s turns)) = afterAll s turns := by
  obtain ⟨requests, hreplay⟩ := afterAll_eq_replay turns s
  exact Store.replay_requestsSince hreplay

/-- While the route that one turn answered with is not taken away, no turn for its key answers with
another. -/
theorem answer_again {first second : Turn τ} {between : List (Turn τ)} {r₁ r₂ : Route}
    (hs : s.KeysDistinct) (h₁ : first.answer s = .ok (.route (some r₁)))
    (h₂ : second.answer (afterAll (first.after s) between) = .ok (.route (some r₂)))
    (hkey : first.key? s = second.key? (afterAll (first.after s) between))
    (hkept : (first.after s).Keeps (fun r => r = r₁)
      (Store.requestsSince (first.after s) (afterAll (first.after s) between))) : r₁ = r₂ := by
  obtain ⟨hkey₁, hstored₁, -⟩ := answer_route h₁
  obtain ⟨hkey₂, -, horigin⟩ := answer_route h₂
  have hsame : r₁.key = r₂.key := by
    rw [hkey₁, hkey₂] at hkey
    exact Option.some.inj hkey
  have hstill := hkept.mem_replay rfl hstored₁
  rw [replay_afterAll] at hstill
  rcases horigin with hold | hfresh
  · have hd := keysDistinct_afterAll hs (first :: between)
    exact Store.keysDistinct_iff.mp hd r₁ hstill r₂ hold hsame
  · exact absurd hsame (hfresh r₁ hstill)

/-- Creating or reusing never duplicates a route. From any platform with distinct keys, whatever
orchestrators do there in turn, the keys stay distinct; two turns that provide a route of one key
answer with the same one unless it was taken away between them; while no route of a key is taken
away at most one is created for it, and none if there was one; and a route that is provided has the
key that its turn spells. -/
theorem create_or_reuse (hs : s.KeysDistinct) (turns : List (Turn τ)) :
    (afterAll s turns).KeysDistinct ∧
    (∀ before first between second later, turns = before ++ first :: (between ++ second :: later) →
      ∀ s₁ s₂ s₃ : Store τ, s₁ = afterAll s before → s₂ = first.after s₁ → s₃ = afterAll s₂ between →
      ∀ r₁ r₂, first.answer s₁ = .ok (.route (some r₁)) →
        second.answer s₃ = .ok (.route (some r₂)) → first.key? s₁ = second.key? s₃ →
        s₂.Keeps (fun r => r = r₁) (Store.requestsSince s₂ s₃) → r₁.id = r₂.id) ∧
    replay s (Store.requestsSince s (afterAll s turns)) = afterAll s turns ∧
    (∀ before stretch later, Store.requestsSince s (afterAll s turns) = before ++ stretch ++ later →
      ∀ key, (replay s before).Keeps (fun r => r.key = key) stretch →
        (replay s before).grantCount key stretch ≤ 1 ∧
        ((∃ r ∈ (replay s before).routes.items, r.key = key) →
          (replay s before).grantCount key stretch = 0)) ∧
    (∀ before turn later, turns = before ++ turn :: later →
      ∀ r, turn.answer (afterAll s before) = .ok (.route (some r)) →
        turn.key? (afterAll s before) = some r.key) := by
  refine ⟨keysDistinct_afterAll hs turns, ?_, replay_afterAll s turns, ?_, ?_⟩
  · intro before first between second later _ s₁ s₂ s₃ h₁ h₂ h₃ r₁ r₂ hanswer₁ hanswer₂ hkey hkept
    subst h₁
    subst h₂
    subst h₃
    rw [answer_again (keysDistinct_afterAll hs before) hanswer₁ hanswer₂ hkey hkept]
  · intro before stretch later _ key hkept
    refine ⟨Store.grantCount_le_one hkept, ?_⟩
    rintro ⟨r, hr, hkey⟩
    exact Store.grantCount_stored hkept hr hkey
  · intro before turn later _ r hanswer
    exact (answer_route hanswer).1

/-- A platform that matches hosts loosely, with a route whose host contains the one asked for. -/
def looseStore : Store ℚ where
  pageSize := 1
  substringFilters := true
  nextId := 7
  organizations := Register.empty.put (.of "org-1" "org")
  spaces := Register.empty.put ⟨.of "space-2" "space", "org-1"⟩
  domains := Register.empty.put ⟨"domain-3", "example.com", .shared, none⟩
  applications := Register.empty.put ⟨.of "app-4" "app", "space-2"⟩
  routes := Register.empty.put ⟨"route-5", "domain-3", "space-2", "api-v2", "/v1", none⟩

/-- A turn that has a route created, and one of another orchestrator that spells the same key. -/
def creating : Turn ℚ where
  orchestrator := ⟨"org-1", none, ⟨1, 5⟩⟩
  work := .create "example.com" "space" (some " api\t") (some "v1")
  surroundings := ⟨(), 0, 0, none, [], [], 9⟩

def mapping : Turn ℚ where
  orchestrator := ⟨"org-1", some "space-2", ⟨2, 9⟩⟩
  work := .map "app" "example.com" (some "api") (some " /v1")
  surroundings := ⟨(), 3, 1, none, [], [], 9⟩

theorem create_or_reuse_loosely : looseStore.KeysDistinct ∧
    (afterAll looseStore [creating, mapping]).KeysDistinct ∧
    ∃ r₁ r₂, creating.answer looseStore = .ok (.route (some r₁)) ∧
      mapping.answer (creating.after looseStore) = .ok (.route (some r₂)) ∧
      r₁.key = ⟨"domain-3", "api", "/v1"⟩ ∧ r₁.id = r₂.id := by
  have hdistinct : looseStore.KeysDistinct := by
    unfold Store.KeysDistinct
    decide
  obtain ⟨hafter, hsame, -, -, hspelled⟩ := create_or_reuse hdistinct [creating, mapping]
  have hcreated : creating.answer looseStore =
      .ok (.route (some ⟨"route-7", "domain-3", "space-2", "api", "/v1", none⟩)) := rfl
  have hmapped : mapping.answer (creating.after looseStore) =
      .ok (.route (some ⟨"route-7", "domain-3", "space-2", "api", "/v1", none⟩)) := rfl
  have hkept : (creating.after looseStore).Keeps
      (fun r => r = ⟨"route-7", "domain-3", "space-2", "api", "/v1", none⟩)
      (Store.requestsSince (creating.after looseStore) (creating.after looseStore)) := by
    rw [Store.requestsSince, List.drop_length]
    trivial
  have hkey := hspelled [] creating [mapping] rfl _ hcreated
  refine ⟨hdistinct, hafter, _, _, hcreated, hmapped, ?_, ?_⟩
  · exact (Option.some.inj hkey).symm
  · exact hsame [] creating [] mapping [] rfl _ _ _ rfl rfl rfl _ _ hcreated hmapped rfl hkept

end Turn

end PlatformRoutes
