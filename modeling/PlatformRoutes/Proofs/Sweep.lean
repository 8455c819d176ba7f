import PlatformRoutes.Proofs.Deletion
import PlatformRoutes.Proofs.Listing

namespace PlatformRoutes

/-- Whether the route serves an instance. -/
def Route.serves (r : Route) : Bool := !(r.serviceInstanceId.getD "").isEmpty

/-- The route whose deletion a request asks for. -/
def Request.deletion? : Request → Option String
  | .deleteRoute routeId => some routeId
  | _ => none

namespace Store

variable {τ : Type} {s s' : Store τ} {r : Route}

/-- The routes that the platform has been asked to delete. -/
def deletions (s : Store τ) : List String := s.calls.filterMap Request.deletion?

/-- Why the applications of a route cannot be listed, if they cannot. -/
def refusal (s : Store τ) (r : Route) : Option (Failure τ) :=
  s.failureOf? .routeApplications [(.routeId, r.id)]

def isUsed (s : Store τ) (r : Route) : Bool := s.associations.any fun a => a.2 == r.id

/-- A route that serves nothing, and that no application is listed for. -/
def isOrphan (s : Store τ) (r : Route) : Bool :=
  !r.serves && (s.refusal r).isNone && !s.isUsed r

def orphansOf (s : Store τ) (spaceId : String) : List Route :=
  (s.routesOf spaceId).filter s.isOrphan

theorem listing_routesOf (spaceId : String)
    (h : s.failureOf? .spaceRoutes [(.spaceId, spaceId)] = none) :
    s.listing .spaceRoutes [(.spaceId, spaceId)] = .ok (s.routesOf spaceId) := by
  unfold listing
  rw [h]
  exact select_routesOf spaceId

theorem listing_refused {f : Failure τ} (h : s.refusal r = some f) :
    s.listing .routeApplications [(.routeId, r.id)] = .error f := by
  unfold refusal at h
  unfold listing
  rw [h]

/-- Where all applications in use are known, the listing of a route's applications shows one if and
only if there is one. -/
theorem listing_applications (known : ∀ a ∈ s.associations, s.applications.contains a.1 = true)
    (h : s.refusal r = none) :
    ∃ items : List Ref, s.listing .routeApplications [(.routeId, r.id)] = .ok items ∧
      (items.head? = none ↔ s.isUsed r = false) := by
  have hall : ∀ a ∈ s.associations.filter fun a => a.2 == r.id,
      ∃ ref : Ref, (s.application a.1 : Except (Failure τ) Ref) = .ok ref := by
    intro a ha
    have hk := known a (List.mem_filter.mp ha).1
    obtain ⟨owned, ho⟩ := Option.isSome_iff_exists.mp hk
    exact ⟨owned.ref, by rw [application, ho]⟩
  obtain ⟨items, hitems⟩ := exists_mapM_ok hall
  have hlength := length_of_mapM_ok hitems
  refine ⟨items, ?_, ?_⟩
  · unfold refusal at h
    unfold listing
    rw [h]
    exact hitems
  · rw [List.head?_eq_none_iff, ← List.length_eq_zero_iff, hlength, List.length_eq_zero_iff,
      List.filter_eq_nil_iff, isUsed, List.any_eq_false]

end Store

/-- What a part of a sweep leaves of the world: the routes that are gone, and the requests for the
deletions that were tried. Each try spends one number and one script. -/
structure World.Swept {τ : Type} (w v : World (Store τ) τ) (gone tried : List String) : Prop where
  pageSize : v.platform.pageSize = w.platform.pageSize
  listFailures : v.platform.listFailures = w.platform.listFailures
  applications : v.platform.applications = w.platform.applications
  associations : v.platform.associations = w.platform.associations
  routes : v.platform.routes.items = w.platform.routes.items.filter fun r => !gone.contains r.id
  nextId : v.platform.nextId = w.platform.nextId + tried.length
  scripts : ∀ id, id ∉ tried →
    v.platform.deleteScripts.find? id = w.platform.deleteScripts.find? id
  deletions : v.platform.deletions = w.platform.deletions ++ tried
  fetchCost : v.fetchCost = w.fetchCost
  cancelAt : v.cancelAt = w.cancelAt

namespace World.Swept

variable {τ : Type} {u v w : World (Store τ) τ} {r : Route} {gone gone' tried tried' : List String}

theorem refl (w : World (Store τ) τ) : Swept w w [] [] where
  pageSize := rfl
  listFailures := rfl
  applications := rfl
  associations := rfl
  routes := by simp
  nextId := rfl
  scripts := fun _ _ => rfl
  deletions := (List.append_nil _).symm
  fetchCost := rfl
  cancelAt := rfl

theorem logged (w : World (Store τ) τ) (resource : Resource) (filters : Filters)
    (first count : ℕ) :
    Swept w (w.logged (Store.pageRequests resource filters first count)) [] [] := by
  have hnone : (Store.pageRequests resource filters first count).filterMap Request.deletion? = [] := by
    simp [Store.pageRequests, List.filterMap_map, Request.deletion?]
  have h := refl w
  constructor
  case deletions =>
    simp only [Store.deletions, World.logged, List.filterMap_append, hnone, List.append_nil]
  case routes => exact h.routes
  case scripts => exact h.scripts
  all_goals rfl

theorem emitted (h : Swept w v gone tried) (events : List Event) :
    Swept w { v with events := events } gone tried := by
  cases h
  constructor <;> assumption

theorem trans (h : Swept w v gone tried) (h' : Swept v u gone' tried') :
    Swept w u (gone ++ gone') (tried ++ tried') where
  pageSize := h'.pageSize.trans h.pageSize
  listFailures := h'.listFailures.trans h.listFailures
  applications := h'.applications.trans h.applications
  associations := h'.associations.trans h.associations
  routes := by
    rw [h'.routes, h.routes, List.filter_filter]
    refine List.filter_congr fun r _ => ?_
    simp [Bool.and_comm]
  nextId := by
    rw [h'.nextId, h.nextId, List.length_append, Nat.add_assoc]
  scripts := by
    intro id hid
    rw [List.mem_append, not_or] at hid
    rw [h'.scripts id hid.2, h.scripts id hid.1]
  deletions := by
    rw [h'.deletions, h.deletions, List.append_assoc]
  fetchCost := h'.fetchCost.trans h.fetchCost
  cancelAt := h'.cancelAt.trans h.cancelAt

theorem refusal (h : Swept w v gone tried) (r : Route) :
    v.platform.refusal r = w.platform.refusal r := by
  simp only [Store.refusal, Store.failureOf?, h.listFailures]

theorem isUsed (h : Swept w v gone tried) (r : Route) :
    v.platform.isUsed r = w.platform.isUsed r := by
  simp only [Store.isUsed, h.associations]

theorem isOrphan (h : Swept w v gone tried) (r : Route) :
    v.platform.isOrphan r = w.platform.isOrphan r := by
  simp only [Store.isOrphan, h.refusal, h.isUsed]

theorem mem_routes (h : Swept w v gone tried) :
    r ∈ v.platform.routes.items ↔ r ∈ w.platform.routes.items ∧ r.id ∉ gone := by
  rw [h.routes, List.mem_filter]
  simp

theorem deleteTrack (h : Swept w v gone tried) (jobId : String) (hr : r.id ∉ tried) :
    v.platform.deleteTrack jobId r.id = w.platform.deleteTrack jobId r.id := by
  simp only [Store.deleteTrack, h.scripts r.id hr]

end World.Swept

namespace Orchestrator

variable {o : Orchestrator ℚ} {start v w : World (Store ℚ) ℚ} {r : Route} {spaceId : String}

/-- What the platform, the clock and the poller have to be like for a sweep to end. -/
structure Sweepable (p : Poller ℚ) (w : World (Store ℚ) ℚ) : Prop where
  pageSize : 0 < w.platform.pageSize
  known : ∀ a ∈ w.platform.associations, w.platform.applications.contains a.1 = true
  contained : ∀ f ∈ w.platform.listFailures, f.resource = .routeApplications →
    f.failure.isContained = true
  uncancelled : w.cancelAt = none
  cost : 0 ≤ w.fetchCost
  time : 0 < p.interval + w.fetchCost

theorem Sweepable.of_swept {p : Poller ℚ} {gone tried : List String} (hw : Sweepable p w)
    (h : World.Swept w v gone tried) : Sweepable p v where
  pageSize := by
    rw [h.pageSize]
    exact hw.pageSize
  known := by
    rw [h.associations, h.applications]
    exact hw.known
  contained := by
    rw [h.listFailures]
    exact hw.contained
  uncancelled := h.cancelAt.trans hw.uncancelled
  cost := by
    rw [h.fetchCost]
    exact hw.cost
  time := by
    rw [h.fetchCost]
    exact hw.time

theorem Sweepable.refusal_isContained {p : Poller ℚ} (hw : Sweepable p w) {f : Failure ℚ}
    (h : w.platform.refusal r = some f) : f.isContained = true := by
  obtain ⟨l, hl, rfl⟩ := Option.map_eq_some_iff.mp h
  have hmatch := List.find?_some hl
  simp only [Bool.and_eq_true, beq_iff_eq] at hmatch
  exact hw.contained l (List.mem_of_find?_eq_some hl) hmatch.1

/-- Why a route of a sweep fails, if it does. An orphan's deletion gets a job of the given name. -/
def sweepFailure (p : Poller ℚ) (cost : ℚ) (s : Store ℚ) (jobId : String) (r : Route) :
    Option (Failure ℚ) :=
  if r.serves then none
  else
    match s.refusal r with
    | some f => some f
    | none => if s.isUsed r then none else p.waitFailure cost (s.deleteTrack jobId r.id)

theorem sweepFailure_orphan {p : Poller ℚ} {cost : ℚ} {s : Store ℚ} (h : s.isOrphan r = true)
    (jobId : String) :
    sweepFailure p cost s jobId r = p.waitFailure cost (s.deleteTrack jobId r.id) := by
  simp only [Store.isOrphan, Bool.and_eq_true, Bool.not_eq_true', Option.isNone_iff_eq_none] at h
  simp [sweepFailure, h]

/-- The name of a job does not matter to a route that is not deleted. -/
theorem sweepFailure_other {p : Poller ℚ} {cost : ℚ} {s : Store ℚ} (h : s.isOrphan r = false)
    (jobId jobId' : String) : sweepFailure p cost s jobId r = sweepFailure p cost s jobId' r := by
  unfold sweepFailure
  cases hs : r.serves with
  | true => rfl
  | false =>
    cases hf : s.refusal r with
    | some f => rfl
    | none =>
      cases hu : s.isUsed r with
      | true => rfl
      | false => simp [Store.isOrphan, hs, hf, hu] at h

/-- What one more route makes of a sweep. -/
def Sweep.after {τ : Type} (sofar : Sweep τ) (routeId : String) (tried : Bool) :
    Option (Failure τ) → Sweep τ
  | some f => { sofar with failures := Failure.record sofar.failures routeId f }
  | none => if tried then { sofar with deleted := sofar.deleted ++ [routeId] } else sofar

theorem deleteUnused_refused (hw : Sweepable o.poller w) {f : Failure ℚ}
    (h : w.platform.refusal r = some f) :
    ∃ v, Ends (o.deleteUnused r) w (.error f) v ∧ World.Swept w v [] [] := by
  have hlist := Store.listFirst_ends hw.pageSize .routeApplications [(.routeId, r.id)]
  rw [Store.listing_refused h] at hlist
  exact ⟨_, hlist.bind_error, .logged w _ _ _ _⟩

/-- Looking for one application of a route finds some if and only if the route is in use. -/
theorem firstApplication_ends {p : Poller ℚ} (hw : Sweepable p w) (h : w.platform.refusal r = none) :
    ∃ found : Option Ref,
      Ends (Run.listFirst .routeApplications [(.routeId, r.id)]) w (.ok found)
        (w.logged (Store.pageRequests .routeApplications [(.routeId, r.id)] 1 1)) ∧
      (found = none ↔ w.platform.isUsed r = false) := by
  have hlist := Store.listFirst_ends hw.pageSize .routeApplications [(.routeId, r.id)]
  obtain ⟨items, hitems, hempty⟩ := Store.listing_applications hw.known h
  rw [hitems] at hlist
  exact ⟨items.head?, hlist, hempty⟩

theorem deleteUnused_used (hw : Sweepable o.poller w) (h : w.platform.refusal r = none)
    (hu : w.platform.isUsed r = true) :
    ∃ v, Ends (o.deleteUnused r) w (.ok false) v ∧ World.Swept w v [] [] := by
  obtain ⟨found, hfound, hnone⟩ := firstApplication_ends hw h
  cases found with
  | none => simp [hu] at hnone
  | some ref =>
    exact ⟨_, hfound.bind ((Ends.emit _ _).bind (Ends.pure false _)),
      (World.Swept.logged w _ _ _ _).emitted _⟩

/-- A deletion of a route that no application uses leaves all associations as they are. -/
theorem swept_of_deletion {failure : Option (Failure ℚ)} {jobs : Register JobTrack} {looks : ℕ}
    {jobId : String} (hu : w.platform.isUsed r = false)
    (hv : v.platform = { afterDeletion w.platform r.id failure with
      calls := (w.platform.deleting r.id).calls ++ List.replicate looks (.getJob jobId)
      jobs := jobs })
    (hcost : v.fetchCost = w.fetchCost) (hcancel : v.cancelAt = w.cancelAt) :
    World.Swept w v (if failure.isNone then [r.id] else []) [r.id] := by
  have hdeletions : v.platform.deletions = w.platform.deletions ++ [r.id] := by
    have hlooks : (List.replicate looks (Request.getJob jobId)).filterMap Request.deletion? = [] := by
      simp [Request.deletion?]
    rw [hv]
    simp only [Store.deletions, Store.deleting, List.filterMap_append, hlooks, List.append_nil]
    rfl
  have hassociations : (w.platform.associations.filter fun a => a.2 != r.id) =
      w.platform.associations := by
    refine List.filter_eq_self.mpr fun a ha => ?_
    have := List.any_eq_false.mp hu a ha
    simpa using this
  constructor
  case routes =>
    rw [hv]
    cases failure with
    | none =>
      refine List.filter_congr fun q _ => ?_
      by_cases h : q.id = r.id <;> simp [Keyed.key, h]
    | some f => simp [afterDeletion, Store.deleting]
  case associations =>
    rw [hv]
    cases failure with
    | none => exact hassociations
    | some f => rfl
  case scripts =>
    intro id hid
    have hid : id ≠ r.id := List.mem_singleton.not.mp hid
    rw [hv]
    cases failure <;> exact Register.find?_erase_other hid
  case deletions => exact hdeletions
  case fetchCost => exact hcost
  case cancelAt => exact hcancel
  all_goals
    rw [hv]
    cases failure <;> rfl

theorem deleteUnused_orphan (hw : Sweepable o.poller w) (hr : r ∈ w.platform.routes.items)
    (h : w.platform.refusal r = none) (hu : w.platform.isUsed r = false)
    {failure : Option (Failure ℚ)} (hf : o.poller.waitFailure w.fetchCost
      (w.platform.deleteTrack (Store.jobName w.platform.nextId) r.id) = failure) :
    ∃ v, Ends (o.deleteUnused r) w
        (match failure with | none => .ok true | some f => .error f) v ∧
      World.Swept w v (if failure.isNone then [r.id] else []) [r.id] := by
  obtain ⟨found, hlist, hnone⟩ := firstApplication_ends hw h
  obtain rfl := hnone.mpr hu
  have hlogged := World.Swept.logged w .routeApplications [(.routeId, r.id)] 1 1
  have hw' := hw.of_swept hlogged
  have hcontains : w.platform.routes.contains r.id = true :=
    Register.contains_iff.mpr ⟨r, hr, rfl⟩
  obtain ⟨v, jobs, looks, hdelete, hv, hcost, hcancel⟩ :=
    deleteRoute_ends (w := w.logged (Store.pageRequests .routeApplications [(.routeId, r.id)] 1 1))
      hcontains hw'.uncancelled hw'.cost hw'.time hf
  have hswept := hlogged.trans
    (swept_of_deletion hu hv hcost (hcancel.trans hw.uncancelled.symm))
  refine ⟨v, ?_, hswept⟩
  cases failure with
  | none => exact hlist.bind (hdelete.bind (Ends.pure true v))
  | some f => exact hlist.bind hdelete.bind_error

/-- What a sweep makes of how it went with a route that serves nothing. -/
theorem sweepRoute_unserved (hs : r.serves = false) (sofar : Sweep ℚ)
    {outcome : Except (Failure ℚ) Bool} (h : Ends (o.deleteUnused r) w outcome v)
    (hcontained : ∀ f, outcome = .error f → f.isContained = true) :
    Ends (o.sweepRoute sofar r) w
      (.ok (match outcome with
        | .ok tried => sofar.after r.id tried none
        | .error f => sofar.after r.id true (some f))) v := by
  have hempty : (r.serviceInstanceId.getD "").isEmpty = true := by simpa [Route.serves] using hs
  rw [sweepRoute, if_pos hempty]
  refine h.attempt.bind ?_
  cases outcome with
  | ok tried => cases tried <;> exact Ends.pure _ _
  | error f =>
    dsimp only
    rw [if_pos (hcontained f rfl)]
    exact Ends.pure _ _

/-- One route of a sweep. Only an orphan is tried, and it is gone if nothing failed. -/
theorem sweepRoute_ends (hw : Sweepable o.poller w) (hr : r ∈ w.platform.routes.items)
    (sofar : Sweep ℚ) {failure : Option (Failure ℚ)}
    (hf : sweepFailure o.poller w.fetchCost w.platform (Store.jobName w.platform.nextId) r = failure) :
    ∃ v, Ends (o.sweepRoute sofar r) w
        (.ok (sofar.after r.id (w.platform.isOrphan r) failure)) v ∧
      World.Swept w v (if w.platform.isOrphan r && failure.isNone then [r.id] else [])
        (if w.platform.isOrphan r then [r.id] else []) := by
  unfold sweepFailure at hf
  unfold Store.isOrphan
  cases hs : r.serves with
  | true =>
    have hfull : ¬ (r.serviceInstanceId.getD "").isEmpty = true := by
      simpa [Route.serves] using hs
    rw [hs] at hf
    subst hf
    rw [sweepRoute, if_neg hfull]
    exact ⟨_, (Ends.emit _ w).bind (Ends.pure _ _), (World.Swept.refl w).emitted _⟩
  | false =>
    rw [hs, if_neg Bool.false_ne_true] at hf
    cases hrefusal : w.platform.refusal r with
    | some f =>
      rw [hrefusal] at hf
      subst hf
      obtain ⟨v, hv, hswept⟩ := deleteUnused_refused hw hrefusal
      refine ⟨v, sweepRoute_unserved hs sofar hv ?_, hswept⟩
      rintro _ ⟨⟩
      exact hw.refusal_isContained hrefusal
    | none =>
      rw [hrefusal] at hf
      cases hu : w.platform.isUsed r with
      | true =>
        rw [hu, if_pos rfl] at hf
        subst hf
        obtain ⟨v, hv, hswept⟩ := deleteUnused_used hw hrefusal hu
        exact ⟨v, sweepRoute_unserved hs sofar hv fun _ h => (by cases h), hswept⟩
      | false =>
        rw [hu, if_neg Bool.false_ne_true] at hf
        obtain ⟨v, hv, hswept⟩ := deleteUnused_orphan hw hr hrefusal hu hf
        refine ⟨v, ?_, hswept⟩
        cases failure with
        | none => exact sweepRoute_unserved hs sofar hv fun _ h => (by cases h)
        | some f =>
          refine sweepRoute_unserved hs sofar hv ?_
          rintro _ ⟨⟩
          exact Poller.waitFailure_isContained hf

/-- The name of the job that deletes an orphan of a space. The jobs get the next numbers in turn. -/
def sweepJob (s : Store ℚ) (spaceId : String) (r : Route) : String :=
  Store.jobName (s.nextId + (s.orphansOf spaceId).idxOf r)

/-- Why a route of a space fails in a sweep that starts here, if it does. -/
def failureOf (o : Orchestrator ℚ) (start : World (Store ℚ) ℚ) (spaceId : String) (r : Route) :
    Option (Failure ℚ) :=
  sweepFailure o.poller start.fetchCost start.platform (sweepJob start.platform spaceId r) r

/-- The routes of some that a sweep takes away. -/
def goneOf (o : Orchestrator ℚ) (start : World (Store ℚ) ℚ) (spaceId : String)
    (routes : List Route) : List Route :=
  routes.filter fun r => start.platform.isOrphan r && (o.failureOf start spaceId r).isNone

def failuresOf (o : Orchestrator ℚ) (start : World (Store ℚ) ℚ) (spaceId : String)
    (routes : List Route) : List (String × Failure ℚ) :=
  routes.filterMap fun r => (o.failureOf start spaceId r).map (r.id, ·)

/-- The state of a sweep that has handled some of the routes listed at its start. -/
structure SweptTo (o : Orchestrator ℚ) (start : World (Store ℚ) ℚ) (spaceId : String)
    (handled : List Route) (sofar : Sweep ℚ) (w : World (Store ℚ) ℚ) : Prop where
  world : World.Swept start w ((o.goneOf start spaceId handled).map Route.id)
    ((handled.filter start.platform.isOrphan).map Route.id)
  deleted : sofar.deleted = (o.goneOf start spaceId handled).map Route.id
  failures : sofar.failures = o.failuresOf start spaceId handled

theorem record_fresh {τ : Type} {id : String} {f : Failure τ} {failures : List (String × Failure τ)}
    (h : ∀ e ∈ failures, e.1 ≠ id) : Failure.record failures id f = failures ++ [(id, f)] := by
  induction failures with
  | nil => rfl
  | cons e rest ih =>
    have hne : ¬ (e.1 == id) = true := by simpa using h e List.mem_cons_self
    rw [Failure.record, if_neg hne, ih fun e' he => h e' (List.mem_cons_of_mem e he)]
    rfl

theorem nodup_routesOf (s : Store ℚ) (spaceId : String) :
    ((s.routesOf spaceId).map Route.id).Nodup :=
  (List.filter_sublist.map _).nodup s.routes.distinct

/-- A route that is still to be handled is none of those that were. -/
theorem id_notMem_handled {s : Store ℚ} {handled todo : List Route}
    (hall : s.routesOf spaceId = handled ++ r :: todo) : r.id ∉ handled.map Route.id := by
  have h := nodup_routesOf s spaceId
  rw [hall, List.map_append, List.map_cons, List.nodup_append] at h
  intro hmem
  exact h.2.2 r.id hmem r.id List.mem_cons_self rfl

/-- An orphan's turn comes with the number that is reserved for it. -/
theorem idxOf_orphan {s : Store ℚ} {handled todo : List Route}
    (hall : s.routesOf spaceId = handled ++ r :: todo) (h : s.isOrphan r = true) :
    (s.orphansOf spaceId).idxOf r = (handled.filter s.isOrphan).length := by
  have hfresh : r ∉ handled.filter s.isOrphan := by
    intro hmem
    exact id_notMem_handled hall (List.mem_map_of_mem (List.mem_of_mem_filter hmem))
  rw [Store.orphansOf, hall, List.filter_append, List.filter_cons_of_pos h,
    List.idxOf_append_of_notMem hfresh, List.idxOf_cons_self, Nat.add_zero]

/-- What a route comes to is settled by the world at the start of the sweep. -/
theorem SweptTo.failure_eq {handled todo : List Route} {sofar : Sweep ℚ}
    (h : SweptTo o start spaceId handled sofar w)
    (hall : start.platform.routesOf spaceId = handled ++ r :: todo) :
    sweepFailure o.poller w.fetchCost w.platform (Store.jobName w.platform.nextId) r =
      o.failureOf start spaceId r := by
  have htried : r.id ∉ (handled.filter start.platform.isOrphan).map Route.id := by
    intro hmem
    exact id_notMem_handled hall ((List.filter_sublist.map Route.id).subset hmem)
  have hsame : ∀ jobId, sweepFailure o.poller w.fetchCost w.platform jobId r =
      sweepFailure o.poller start.fetchCost start.platform jobId r := by
    intro jobId
    simp only [sweepFailure, h.world.refusal, h.world.isUsed, h.world.fetchCost,
      h.world.deleteTrack jobId htried]
  rw [hsame, failureOf]
  cases horphan : start.platform.isOrphan r with
  | true =>
    rw [sweepJob, idxOf_orphan hall horphan, h.world.nextId, List.length_map]
  | false => exact sweepFailure_other horphan _ _

theorem map_filter_append (p : Route → Bool) (routes : List Route) (r : Route) :
    ((routes ++ [r]).filter p).map Route.id =
      (routes.filter p).map Route.id ++ if p r then [r.id] else [] := by
  rw [List.filter_append, List.map_append, List.filter_singleton]
  cases p r <;> rfl

/-- Handling one more route keeps the state that a sweep is in. -/
theorem SweptTo.step {handled todo : List Route} {sofar : Sweep ℚ}
    (hw : Sweepable o.poller start) (h : SweptTo o start spaceId handled sofar w)
    (hall : start.platform.routesOf spaceId = handled ++ r :: todo) :
    ∃ next v, Ends (o.sweepRoute sofar r) w (.ok next) v ∧
      SweptTo o start spaceId (handled ++ [r]) next v := by
  have hlisted : r ∈ start.platform.routes.items := by
    refine List.mem_of_mem_filter (p := fun r => r.spaceId == spaceId) ?_
    change r ∈ start.platform.routesOf spaceId
    rw [hall]
    exact List.mem_append_right _ List.mem_cons_self
  have hfresh := id_notMem_handled hall
  have hstored : r ∈ w.platform.routes.items := by
    refine h.world.mem_routes.mpr ⟨hlisted, fun hmem => hfresh ?_⟩
    exact (List.filter_sublist.map Route.id).subset hmem
  obtain ⟨v, hv, hswept⟩ := sweepRoute_ends (hw.of_swept h.world) hstored sofar (h.failure_eq hall)
  rw [h.world.isOrphan] at hv hswept
  have hgone : (o.goneOf start spaceId (handled ++ [r])).map Route.id =
      (o.goneOf start spaceId handled).map Route.id ++
        if start.platform.isOrphan r && (o.failureOf start spaceId r).isNone then [r.id] else [] :=
    map_filter_append _ handled r
  refine ⟨_, v, hv, ?_, ?_, ?_⟩
  · rw [hgone, map_filter_append]
    exact h.world.trans hswept
  · rw [hgone, ← h.deleted]
    cases o.failureOf start spaceId r with
    | none => cases start.platform.isOrphan r <;> simp [Sweep.after]
    | some f => simp [Sweep.after]
  · have happend : o.failuresOf start spaceId (handled ++ [r]) =
        sofar.failures ++ ((o.failureOf start spaceId r).map (r.id, ·)).toList := by
      rw [h.failures, failuresOf, List.filterMap_append]
      cases hf : o.failureOf start spaceId r <;> simp [failuresOf, hf]
    rw [happend]
    cases o.failureOf start spaceId r with
    | none => cases start.platform.isOrphan r <;> simp [Sweep.after]
    | some f =>
      refine record_fresh fun e he hid => hfresh ?_
      rw [h.failures] at he
      obtain ⟨q, hq, hfail⟩ := List.mem_filterMap.mp he
      obtain ⟨g, -, rfl⟩ := Option.map_eq_some_iff.mp hfail
      rw [← hid]
      exact List.mem_map_of_mem hq

/-- A sweep that has come somewhere comes to the end of the routes it listed. -/
theorem SweptTo.run {handled todo : List Route} {sofar : Sweep ℚ} (hw : Sweepable o.poller start)
    (h : SweptTo o start spaceId handled sofar w)
    (hall : start.platform.routesOf spaceId = handled ++ todo) :
    ∃ final v, Ends (todo.foldlM (sweepRoute o) sofar) w (.ok final) v ∧
      SweptTo o start spaceId (start.platform.routesOf spaceId) final v := by
  exact Ends.foldlM (fun _ _ _ _ _ hall h => h.step hw hall) hall h

theorem mem_goneOf (hpos : 0 < o.poller.interval + start.fetchCost) :
    r ∈ o.goneOf start spaceId (start.platform.routesOf spaceId) ↔
      r ∈ start.platform.orphansOf spaceId ∧ o.poller.SeesFinished start.fetchCost
        (start.platform.deleteTrack (sweepJob start.platform spaceId r) r.id) := by
  rw [goneOf, Store.orphansOf, List.mem_filter, List.mem_filter, and_assoc, Bool.and_eq_true,
    Option.isNone_iff_eq_none]
  refine and_congr_right fun _ => and_congr_right fun horphan => ?_
  rw [failureOf, sweepFailure_orphan horphan, Poller.waitFailure_eq_none_iff hpos]

/-- Only ids of the routes that a sweep takes away are missing afterwards. -/
theorem notMem_routes_iff {tried : List String}
    (h : World.Swept start v
      ((o.goneOf start spaceId (start.platform.routesOf spaceId)).map Route.id) tried)
    (hr : r ∈ start.platform.routes.items) :
    r ∉ v.platform.routes.items ↔
      r ∈ o.goneOf start spaceId (start.platform.routesOf spaceId) := by
  rw [h.mem_routes, not_and, not_not]
  constructor
  · intro hgone
    obtain ⟨q, hq, hid⟩ := List.mem_map.mp (hgone hr)
    have hstored : q ∈ start.platform.routes.items :=
      List.mem_of_mem_filter (List.mem_of_mem_filter hq)
    rwa [← Register.eq_of_key hstored hr hid]
  · exact fun hgone _ => List.mem_map_of_mem hgone

/-- A sweep asks for the deletion of every orphan of its space once and in the order of the store.
Those whose deletion is seen to finish are gone, all else is as before, and the answer tells the ids
of the routes that are gone, or else every route that failed and why. -/
theorem deleteOrphanedRoutes_exact (hspace : o.spaceId = some spaceId) (hne : spaceId ≠ "")
    (hw : Sweepable o.poller w)
    (hlist : w.platform.failureOf? .spaceRoutes [(.spaceId, spaceId)] = none) :
    ∃ v : World (Store ℚ) ℚ,
      v.platform.deletions = w.platform.deletions ++ (w.platform.orphansOf spaceId).map Route.id ∧
      (∀ r ∈ w.platform.routes.items, r ∉ v.platform.routes.items ↔
        r ∈ w.platform.orphansOf spaceId ∧ o.poller.SeesFinished w.fetchCost
          (w.platform.deleteTrack (sweepJob w.platform spaceId r) r.id)) ∧
      v.platform.routes.items.Sublist w.platform.routes.items ∧
      v.platform.associations = w.platform.associations ∧
      (o.failuresOf w spaceId (w.platform.routesOf spaceId) = [] →
        Ends o.deleteOrphanedRoutes w
          (.ok ((w.platform.routes.items.filter fun r => r ∉ v.platform.routes.items).map Route.id))
          v) ∧
      (o.failuresOf w spaceId (w.platform.routesOf spaceId) ≠ [] →
        Ends o.deleteOrphanedRoutes w
          (.error (.orphans (o.failuresOf w spaceId (w.platform.routesOf spaceId)))) v) := by
  have hrequire : Ends (o.requireSpace (σ := Store ℚ)) w (.ok spaceId) w := by
    have hempty : ¬ spaceId.isEmpty = true := by simpa using hne
    rw [requireSpace, hspace]
    dsimp only
    rw [if_neg hempty]
    exact Ends.pure spaceId w
  have hroutes := Store.listAll_ends hw.pageSize .spaceRoutes [(.spaceId, spaceId)]
  rw [Store.listing_routesOf spaceId hlist] at hroutes
  have hlogged := World.Swept.logged w .spaceRoutes [(.spaceId, spaceId)] 1
    (w.platform.pagesRead .spaceRoutes [(.spaceId, spaceId)])
  have hstart : SweptTo o w spaceId [] ⟨[], []⟩ (w.logged _) := ⟨hlogged, rfl, rfl⟩
  obtain ⟨final, v, hsweep, hv⟩ := SweptTo.run hw hstart rfl
  have hmissing : ∀ r ∈ w.platform.routes.items, r ∉ v.platform.routes.items ↔
      r ∈ o.goneOf w spaceId (w.platform.routesOf spaceId) :=
    fun r hr => notMem_routes_iff hv.world hr
  have hends : ∀ {r : Except (Failure ℚ) (List String)},
      Ends (do
        if final.failures.isEmpty then return final.deleted
        throw (.orphans final.failures) : Run (Store ℚ) ℚ (List String)) v r v →
      Ends o.deleteOrphanedRoutes w r v :=
    fun h => hrequire.bind (hroutes.bind (hsweep.bind h))
  refine ⟨v, hv.world.deletions, fun r hr => ?_, ?_, hv.world.associations, fun hnone => ?_,
    fun hsome => ?_⟩
  · rw [hmissing r hr, mem_goneOf hw.time]
  · rw [hv.world.routes]
    exact List.filter_sublist
  · have hdeleted : final.deleted =
        (w.platform.routes.items.filter fun r => r ∉ v.platform.routes.items).map Route.id := by
      rw [hv.deleted, goneOf, Store.routesOf, List.filter_filter]
      congr 1
      refine List.filter_congr fun r hr => ?_
      rw [Bool.eq_iff_iff, decide_eq_true_iff, hmissing r hr, goneOf, Store.routesOf,
        List.filter_filter, List.mem_filter]
      exact (and_iff_right hr).symm
    rw [← hdeleted]
    refine hends ?_
    rw [hv.failures, hnone]
    exact Ends.pure _ v
  · refine hends ?_
    rw [hv.failures, if_neg (by simpa using hsome)]
    exact Ends.throw _ v

/-- A space with an orphan that can be deleted, a route of a service, a route in use, one whose
applications cannot be listed, and an orphan whose deletion never ends. -/
def strandedWorld : World (Store ℚ) ℚ where
  platform :=
    { pageSize := 2
      substringFilters := false
      applications := Register.empty.put ⟨.of "app" "web", "s"⟩
      routes :=
        [⟨"r1", "d", "s", "a", "", none⟩, ⟨"r2", "d", "s", "b", "", some "service"⟩,
          ⟨"r3", "d", "s", "c", "", none⟩, ⟨"r4", "d", "s", "d", "", none⟩,
          ⟨"r5", "d", "s", "e", "", none⟩, ⟨"r6", "d", "t", "a", "", none⟩].foldl Register.put ∅
      associations := [("app", "r3")]
      deleteScripts :=
        [⟨"r1", ⟨"pending", .queued, none⟩, [⟨"pending", .finished, none⟩]⟩,
          ⟨"r5", ⟨"pending", .running, none⟩, []⟩].foldl Register.put ∅
      listFailures :=
        [⟨.routeApplications, [(.routeId, "r4")], .platform 500 1 "down" "CF-Down"⟩] }
  clock := 0
  fetchCost := 1 / 2
  cancelAt := none
  sleeps := []
  events := []
  patience := 0

def strandedSpace : Orchestrator ℚ := ⟨"org", some "s", ⟨1, 5⟩⟩

theorem strandedWorld_sweepable : Sweepable strandedSpace.poller strandedWorld where
  pageSize := by decide
  known := by decide
  contained := by
    intro f hf _
    obtain rfl := List.mem_singleton.mp hf
    rfl
  uncancelled := rfl
  cost := by norm_num [strandedWorld]
  time := by norm_num [strandedWorld, strandedSpace]

theorem deleteOrphanedRoutes_stranded :
    strandedSpace.spaceId = some "s" ∧ "s" ≠ "" ∧
      Sweepable strandedSpace.poller strandedWorld ∧
      strandedWorld.platform.failureOf? .spaceRoutes [(.spaceId, "s")] = none ∧
      ∃ v : World (Store ℚ) ℚ, v.platform.deletions = ["r1", "r5"] ∧
        Ends strandedSpace.deleteOrphanedRoutes strandedWorld
          (.error (.orphans [("r4", .platform 500 1 "down" "CF-Down"), ("r5", .pollTimeout "job-2" 5)]))
          v := by
  have hlist : strandedWorld.platform.failureOf? .spaceRoutes [(.spaceId, "s")] = none := rfl
  have horphans : (strandedWorld.platform.orphansOf "s").map Route.id = ["r1", "r5"] := by
    decide +kernel
  have hfailures : strandedSpace.failuresOf strandedWorld "s" (strandedWorld.platform.routesOf "s") =
      [("r4", .platform 500 1 "down" "CF-Down"), ("r5", .pollTimeout "job-2" 5)] := by
    with_unfolding_all rfl
  refine ⟨rfl, by decide, strandedWorld_sweepable, hlist, ?_⟩
  obtain ⟨v, hdeletions, -, -, -, -, hends⟩ :=
    deleteOrphanedRoutes_exact rfl (by decide) strandedWorld_sweepable hlist
  rw [hfailures] at hends
  refine ⟨v, ?_, hends (List.cons_ne_nil _ _)⟩
  rw [hdeletions, horphans]
  rfl

end Orchestrator

end PlatformRoutes
