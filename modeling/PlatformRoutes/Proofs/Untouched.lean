import PlatformRoutes.Proofs.UniqueKeys

namespace PlatformRoutes

section Parts

variable {σ τ α β γ : Type} {view : σ → γ} {x : Run σ τ α} {g : α → Run σ τ β}

/-- Whatever comes of the operation, it leaves a part of the platform as it was. -/
def Preserves (view : σ → γ) (x : Run σ τ α) : Prop :=
  ∀ w, view (x.run w).2.platform = view w.platform

/-- If the operation fails, it leaves a part of the platform as it was. -/
def FailsClean (view : σ → γ) (x : Run σ τ α) : Prop :=
  ∀ w f v, x.run w = (.error f, v) → view v.platform = view w.platform

/-- The operation cannot fail. -/
def Succeeds (x : Run σ τ α) : Prop := ∀ w, ∃ a, (x.run w).1 = .ok a

theorem preserves_composed :
    Composed fun {α} (x : Run σ τ α) => Preserves view x where
  pure _ _ := rfl
  throw _ _ := rfl
  bind {_ _ x g} hx hg w := by
    have hfirst := hx w
    cases hr : x.run w with
    | mk outcome v =>
      rw [hr] at hfirst
      cases outcome with
      | error e => rwa [run_bind_error hr]
      | ok a =>
        rw [run_bind_ok hr, hg a v]
        exact hfirst
  attempt hx w := hx w
  surroundings _ h w := h w w

theorem Preserves.failsClean (h : Preserves view x) : FailsClean view x := by
  intro w f v hrun
  have hw := h w
  rwa [hrun] at hw

/-- A failure after what changes nothing leaves all as it was there, or comes later. -/
theorem Preserves.failed_bind {f : Failure τ} {w v : World σ τ} (hx : Preserves view x)
    (h : (x >>= g).run w = (.error f, v)) :
    view v.platform = view w.platform ∨
      ∃ a u, view u.platform = view w.platform ∧ (g a).run u = (.error f, v) := by
  have hfirst := hx w
  rcases run_bind_eq_error h with hfailed | ⟨a, u, hr, hnext⟩
  · rw [hfailed] at hfirst
    exact .inl hfirst
  · rw [hr] at hfirst
    exact .inr ⟨a, u, hfirst, hnext⟩

theorem Succeeds.failsClean (h : Succeeds x) : FailsClean view x := by
  intro w f v hrun
  obtain ⟨a, ha⟩ := h w
  rw [hrun] at ha
  cases ha

/-- Where nothing can fail later, the failure is that of the first part. -/
theorem Succeeds.failed_first {f : Failure τ} {w v : World σ τ} (hg : ∀ a, Succeeds (g a))
    (h : (x >>= g).run w = (.error f, v)) : x.run w = (.error f, v) := by
  rcases run_bind_eq_error h with hfailed | ⟨a, u, -, hnext⟩
  · exact hfailed
  · obtain ⟨b, hb⟩ := hg a u
    rw [hnext] at hb
    cases hb

theorem Succeeds.bind (hx : Succeeds x) (hg : ∀ a, Succeeds (g a)) : Succeeds (x >>= g) := by
  intro w
  obtain ⟨a, ha⟩ := hx w
  have hrun : x.run w = (.ok a, (x.run w).2) := Prod.ext ha rfl
  rw [run_bind_ok hrun]
  exact hg a _

theorem succeeds_pure (a : α) : Succeeds (pure a : Run σ τ α) := fun _ => ⟨a, rfl⟩

theorem succeeds_emit (event : Event) : Succeeds (Run.emit (σ := σ) (τ := τ) event) :=
  fun _ => ⟨(), rfl⟩

/-- The first part changes nothing, or nothing can fail any more after it. -/
theorem FailsClean.bind (hx : ∀ w, view (x.run w).2.platform = view w.platform ∨
      ∃ a, (x.run w).1 = .ok a ∧ Succeeds (g a))
    (hg : ∀ a, FailsClean view (g a)) : FailsClean view (x >>= g) := by
  intro w f v h
  have hfirst := hx w
  cases hr : x.run w with
  | mk outcome u =>
    rw [hr] at hfirst
    cases outcome with
    | error e =>
      rw [run_bind_error hr] at h
      cases h
      rcases hfirst with hsame | ⟨a, ha, -⟩
      · exact hsame
      · cases ha
    | ok a =>
      rw [run_bind_ok hr] at h
      rcases hfirst with hsame | ⟨b, hb, hsure⟩
      · exact (hg a u f v h).trans hsame
      · cases hb
        obtain ⟨c, hc⟩ := hsure u
        rw [h] at hc
        cases hc

/-- What changes nothing may come first. -/
theorem FailsClean.after (hx : Preserves view x) (hg : ∀ a, FailsClean view (g a)) :
    FailsClean view (x >>= g) :=
  FailsClean.bind (fun w => .inl (hx w)) hg

/-- What cannot fail may come last. -/
theorem FailsClean.andThen (hx : FailsClean view x) (hg : ∀ a, Succeeds (g a)) :
    FailsClean view (x >>= g) := by
  refine FailsClean.bind (fun w => ?_) fun a => (hg a).failsClean
  cases hr : x.run w with
  | mk outcome v =>
    cases outcome with
    | error f => exact .inl (hx w f v hr)
    | ok a => exact .inr ⟨a, rfl, hg a⟩

theorem FailsClean.get_bind {g : World σ τ → Run σ τ α} (h : ∀ w, FailsClean view (g w)) :
    FailsClean view (get >>= g) := fun w => h w w

variable {act : Act σ τ α}

theorem Preserves.onPlatform (h : ∀ s, view (act.run s).2 = view s) :
    Preserves view (Run.onPlatform act) := fun w => h w.platform

theorem FailsClean.onPlatform (h : ∀ s f t, act.run s = (.error f, t) → view t = view s) :
    FailsClean view (Run.onPlatform act) := by
  intro w f v hrun
  exact h w.platform f v.platform (run_onPlatform_eq hrun)

theorem preserves_emit (event : Event) : Preserves view (Run.emit (τ := τ) event) := fun _ => rfl

theorem preserves_sleep [Add τ] (duration : τ) : Preserves view (Run.sleep duration) := by
  intro w
  rw [run_sleep_cases]
  split <;> rfl

end Parts

/-- A platform of which a part changes only by requests that go well. Neither a listing nor asking
for a deletion changes it, and a look at a job does only with the answer that it has finished. -/
structure Careful {σ τ γ : Type} [Platform σ τ] (view : σ → γ) : Prop where
  lists : ∀ resource filters (n : Int) (s : σ),
    view ((Platform.listResources resource filters n).run s).2 = view s
  creates : ∀ domainId spaceId host path (s : σ) f t,
    (Platform.createRoute domainId spaceId host path).run s = (.error f, t) → view t = view s
  deletes : ∀ routeId (s : σ), view ((Platform.deleteRoute routeId).run s).2 = view s
  looks : ∀ jobId (s : σ), view ((Platform.getJob jobId).run s).2 = view s ∨
    ∃ job, ((Platform.getJob jobId).run s).1 = .ok job ∧ job.status = .finished
  associates : ∀ applicationId routeId (s : σ) f t,
    (Platform.associateRoute applicationId routeId).run s = (.error f, t) → view t = view s
  removes : ∀ applicationId routeId (s : σ) f t,
    (Platform.removeRoute applicationId routeId).run s = (.error f, t) → view t = view s

/-- A mapping that failed although its route was created: from what was there before the route was
made, and then an application could not be associated with it. -/
def FailedToAssociate {σ τ γ : Type} [Platform σ τ] (view : σ → γ) (w v : World σ τ)
    (f : Failure τ) : Prop :=
  ∃ (u t : World σ τ) (domainId spaceId applicationId : String) (host path : Option String)
    (route : Route), view u.platform = view w.platform ∧
      (Run.createRoute domainId spaceId host path).run u = (.ok route, t) ∧
      (Run.associateRoute applicationId route.id).run t = (.error f, v)

namespace Careful

variable {σ τ γ : Type} [Platform σ τ] {view : σ → γ} (h : Careful view) (o : Orchestrator τ)
include h

theorem preserves_page (resource : Resource) (filters : Filters) (n : Int) :
    Preserves view (Run.listResources (σ := σ) resource filters n) :=
  Preserves.onPlatform (h.lists resource filters n)

theorem preserves_lookups : Lookups (Preserves (σ := σ) (τ := τ) view) :=
  preserves_composed.lookups h.preserves_page

theorem preserves_list (level : Level) : Preserves view (o.list (σ := σ) level) :=
  preserves_composed.list h.preserves_page o level

theorem failsClean_associateRoute (applicationId routeId : String) :
    FailsClean view (Run.associateRoute (σ := σ) applicationId routeId) :=
  FailsClean.onPlatform (h.associates applicationId routeId)

theorem failsClean_resolveOrCreateRoute (domain : Domain) (host path : Option String)
    (spaceId : String) :
    FailsClean view (Run.resolveOrCreateRoute (σ := σ) domain host path spaceId) := by
  refine FailsClean.after (h.preserves_lookups.findRoute domain host path) fun found => ?_
  cases found with
  | none => exact FailsClean.onPlatform (h.creates _ _ _ _)
  | some route => exact (succeeds_pure route).failsClean

/-- A route that was resolved has been there, or was created. -/
theorem resolved_cases {domain : Domain} {host path : Option String} {spaceId : String}
    {w v : World σ τ} {route : Route}
    (hrun : (Run.resolveOrCreateRoute domain host path spaceId).run w = (.ok route, v)) :
    view v.platform = view w.platform ∨
      ∃ u, view u.platform = view w.platform ∧
        (Run.createRoute domain.id spaceId (some (normalSegment host))
          (some (normalPath path))).run u = (.ok route, v) := by
  obtain ⟨found, u, hfind, hrest⟩ := run_bind_eq_ok hrun
  have hsame := h.preserves_lookups.findRoute domain host path w
  rw [hfind] at hsame
  cases found with
  | none => exact .inr ⟨u, hsame, hrest⟩
  | some r =>
    cases hrest
    exact .inl hsame

theorem failsClean_create (domain space : String) (host path : Option String) :
    FailsClean view (o.create (σ := σ) domain space host path) := by
  have hlookups := h.preserves_lookups
  exact FailsClean.after (hlookups.resolveSpace o.organizationId space) fun spaceRef =>
    FailsClean.after (hlookups.resolveDomain o.organizationId domain) fun resolved =>
      (h.failsClean_resolveOrCreateRoute resolved host path spaceRef.id).andThen fun route =>
        (succeeds_emit _).bind fun _ => succeeds_pure route

/-- All that can fail once a route is created is to associate it. -/
theorem map_failed {application domain : String} {host path : Option String} {f : Failure τ}
    {w v : World σ τ} (hrun : (o.map application domain host path).run w = (.error f, v)) :
    view v.platform = view w.platform ∨ FailedToAssociate view w v f := by
  have hlookups := h.preserves_lookups
  rcases (hlookups.requireSpace o).failed_bind hrun with hsame | ⟨spaceId, u₁, h₁, hrun⟩
  · exact .inl hsame
  rcases (hlookups.resolveApplication spaceId application).failed_bind hrun with
    hsame | ⟨app, u₂, h₂, hrun⟩
  · exact .inl (hsame.trans h₁)
  rcases (hlookups.resolveDomain o.organizationId domain).failed_bind hrun with
    hsame | ⟨resolved, u₃, h₃, hrun⟩
  · exact .inl ((hsame.trans h₂).trans h₁)
  have hbefore : view u₃.platform = view w.platform := (h₃.trans h₂).trans h₁
  rcases run_bind_eq_error hrun with hfailed | ⟨route, t, hresolved, hrun⟩
  · exact .inl ((h.failsClean_resolveOrCreateRoute _ _ _ _ _ _ _ hfailed).trans hbefore)
  have hassociate : (Run.associateRoute app.id route.id).run t = (.error f, v) :=
    Succeeds.failed_first (fun _ => (succeeds_emit _).bind fun _ => succeeds_pure route) hrun
  rcases h.resolved_cases hresolved with hsame | ⟨u, hsame, hcreated⟩
  · have hclean := h.failsClean_associateRoute _ _ _ _ _ hassociate
    exact .inl ((hclean.trans hsame).trans hbefore)
  · exact .inr ⟨u, t, _, _, _, _, _, route, hsame.trans hbefore, hcreated, hassociate⟩

theorem failsClean_unmap (application domain : String) (host path : Option String) :
    FailsClean view (o.unmap (σ := σ) application domain host path) := by
  have hlookups := h.preserves_lookups
  exact FailsClean.after (hlookups.requireSpace o) fun spaceId =>
    FailsClean.after (hlookups.resolveApplication spaceId application) fun app =>
      FailsClean.after (hlookups.resolveDomain o.organizationId domain) fun resolved =>
        FailsClean.after (hlookups.resolveRoute resolved host path) fun route =>
          (FailsClean.onPlatform (h.removes app.id route.id)).andThen fun _ => succeeds_emit _

variable [Add τ]

/-- A look takes its time and is then put to the platform. -/
theorem getJob_cases (jobId : String) (w : World σ τ) :
    view ((Run.getJob jobId).run w).2.platform = view w.platform ∨
      ∃ job, ((Run.getJob jobId).run w).1 = .ok job ∧ job.status = .finished :=
  h.looks jobId w.platform

variable [Sub τ] [OfNat τ 0] [LE τ] [LT τ] [DecidableLE τ] [DecidableLT τ]

/-- A look that shows the job finished ends the wait without a failure, and no other look takes a
route away. -/
theorem failsClean_poll (jobId : String) (interval limit deadline : τ) (fuel attempts : ℕ) :
    FailsClean view
      (Poller.poll (σ := σ) jobId interval limit deadline fuel attempts) := by
  induction fuel generalizing attempts with
  | zero => exact (preserves_composed.throw _).failsClean
  | succ fuel ih =>
    refine FailsClean.bind (fun w => ?_) fun job => ?_
    · -- Where the look takes a route away, all that is left to do is to emit events.
      rcases h.getJob_cases jobId w with hsame | ⟨job, hjob, hfinished⟩
      · exact .inl hsame
      · refine .inr ⟨job, hjob, (succeeds_emit _).bind fun _ => ?_⟩
        rw [hfinished]
        exact (succeeds_emit _).bind fun _ => succeeds_pure job
    · refine FailsClean.after (preserves_emit _) fun _ => ?_
      cases job.status with
      | finished => exact ((succeeds_emit _).bind fun _ => succeeds_pure job).failsClean
      | failed =>
        exact FailsClean.after (preserves_emit _) fun _ => (preserves_composed.throw _).failsClean
      | queued | running =>
        refine FailsClean.get_bind fun w => ?_
        dsimp only
        split
        · exact FailsClean.after (preserves_emit _) fun _ => (preserves_composed.throw _).failsClean
        · exact FailsClean.after (preserves_sleep _) fun _ => ih (attempts + 1)

theorem failsClean_awaitJob (p : Poller τ) (job : Job) :
    FailsClean view (p.awaitJob (σ := σ) job) := by
  unfold Poller.awaitJob
  cases job.status with
  | finished => exact (succeeds_pure job).failsClean
  | failed => exact (preserves_composed.throw _).failsClean
  | queued | running => exact FailsClean.get_bind fun w => h.failsClean_poll _ _ _ _ w.patience 0

theorem failsClean_delete (domain : String) (host path : Option String) :
    FailsClean view (o.delete (σ := σ) domain host path) := by
  have hlookups := h.preserves_lookups
  exact FailsClean.after (hlookups.resolveDomain o.organizationId domain) fun resolved =>
    FailsClean.after (hlookups.resolveRoute resolved host path) fun route =>
      FailsClean.after (Preserves.onPlatform (h.deletes route.id)) fun job =>
        (h.failsClean_awaitJob o.poller job).andThen fun _ => succeeds_emit _

/-- Of all pieces of work but a sweep, only a mapping can fail and leave a change. -/
theorem perform_failed {work : RouteWork} (hwork : work ≠ .deleteOrphaned) {f : Failure τ}
    {w v : World σ τ} (hrun : (o.perform work).run w = (.error f, v)) :
    view v.platform = view w.platform ∨
      (∃ application domain host path, work = .map application domain host path) ∧
        FailedToAssociate view w v f := by
  have clean {α : Type} {x : Run σ τ α} {answer : α → Run σ τ Reply} (hx : FailsClean view x)
      (hanswer : ∀ a, Succeeds (answer a)) (hbind : (x >>= answer).run w = (.error f, v)) :
      view v.platform = view w.platform := hx w f v (Succeeds.failed_first hanswer hbind)
  cases work with
  | check domain host path =>
    have hcheck := (h.preserves_lookups.check o domain host path).failsClean
    exact .inl (clean hcheck (fun _ => succeeds_pure _) hrun)
  | create domain space host path =>
    exact .inl (clean (h.failsClean_create o _ _ _ _) (fun _ => succeeds_pure _) hrun)
  | map application domain host path =>
    have hmap := Succeeds.failed_first (fun _ => succeeds_pure _) hrun
    exact (h.map_failed o hmap).imp_right fun hfailed => ⟨⟨_, _, _, _, rfl⟩, hfailed⟩
  | unmap application domain host path =>
    exact .inl (clean (h.failsClean_unmap o _ _ _ _) (fun _ => succeeds_pure _) hrun)
  | delete domain host path =>
    exact .inl (clean (h.failsClean_delete o _ _ _) (fun _ => succeeds_pure _) hrun)
  | list level =>
    exact .inl (clean (h.preserves_list o level).failsClean (fun _ => succeeds_pure _) hrun)
  | deleteOrphaned => exact absurd rfl hwork

end Careful

namespace Store

variable {τ : Type}

/-- The routes of a platform and what they are mapped to. -/
def mappings (s : Store τ) : Register Route × List (String × String) := (s.routes, s.associations)

/-- The routes of a platform, what they are mapped to, and its jobs. -/
def holdings (s : Store τ) : (Register Route × List (String × String)) × Register JobTrack :=
  (s.mappings, s.jobs)

theorem createRoute_failsClean (domainId spaceId : String) (host path : Option String)
    (s : Store τ) (f : Failure τ) (t : Store τ)
    (h : (createRoute domainId spaceId host path).run s = (.error f, t)) :
    t.mappings = s.mappings := by
  rw [run_createRoute] at h
  dsimp only at h
  split at h
  · cases h
    rfl
  · split at h
    · cases h
      rfl
    · rw [run_addRoute] at h
      split at h
      · cases h
        rfl
      · cases h

/-- A route that is created is stored. -/
theorem createRoute_stores {domainId spaceId : String} {host path : Option String}
    {s t : Store τ} {r : Route}
    (h : (createRoute domainId spaceId host path).run s = (.ok r, t)) :
    t.mappings = (s.routes.put r, s.associations) := by
  rw [run_createRoute] at h
  dsimp only at h
  split at h
  · cases h
  · split at h
    · cases h
    · rw [run_addRoute] at h
      split at h
      · cases h
      · cases h
        rfl

theorem mappings_deleteRoute (routeId : String) (s : Store τ) :
    ((deleteRoute routeId).run s).2.mappings = s.mappings := by
  cases h : s.routes.contains routeId with
  | true =>
    rw [run_deleteRoute h]
    rfl
  | false =>
    rw [run_deleteRoute_unknown h]
    rfl

/-- Only the look that shows a job finished changes more than jobs. -/
theorem getJob_cases (jobId : String) (s : Store τ) :
    ((getJob jobId).run s).2.mappings = s.mappings ∨
      ∃ job, ((getJob jobId).run s).1 = .ok job ∧ job.status = .finished := by
  cases h : s.jobs.find? jobId with
  | none =>
    rw [run_getJob_unknown h]
    exact .inl rfl
  | some track =>
    rw [run_getJob h]
    by_cases hf : track.current.status = .finished
    · exact .inr ⟨_, rfl, hf⟩
    · rw [look_pending hf]
      exact .inl rfl

theorem listResources_keeps (resource : Resource) (filters : Filters) (n : Int) (s : Store τ) :
    ((listResources resource filters n).run s).2.holdings = s.holdings := by
  cases resource <;> rfl

theorem careful_mappings : Careful (mappings (τ := τ)) where
  lists resource filters n s := congrArg Prod.fst (listResources_keeps resource filters n s)
  creates := createRoute_failsClean
  deletes := mappings_deleteRoute
  looks := getJob_cases
  associates _ _ _ _ _ h := by cases h
  removes _ _ _ _ _ h := by cases h

end Store

end PlatformRoutes
