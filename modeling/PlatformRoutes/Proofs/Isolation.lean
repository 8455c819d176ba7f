import PlatformRoutes.Proofs.Sweep
import PlatformRoutes.Proofs.Telling

namespace PlatformRoutes

/-- What becomes of a route in a sweep. -/
inductive Fate where
  | deleted
  | skipped
  | failed (f : Failure ℚ)

/-- The same failure, save that one that names the job of its sweep's deletion names another. -/
inductive Failure.Agrees (job job' : String) : Failure ℚ → Failure ℚ → Prop
  | same (f : Failure ℚ) : Agrees job job' f f
  | timeout (limit : ℚ) : Agrees job job' (.pollTimeout job limit) (.pollTimeout job' limit)
  | unexplained : Agrees job job' (Poller.failureOf ⟨job, .failed, none⟩)
      (Poller.failureOf ⟨job', .failed, none⟩)

inductive Fate.Agrees (job job' : String) : Fate → Fate → Prop
  | deleted : Agrees job job' .deleted .deleted
  | skipped : Agrees job job' .skipped .skipped
  | failed {f g : Failure ℚ} : Failure.Agrees job job' f g → Agrees job job' (.failed f) (.failed g)

theorem Fate.Agrees.eq {job : String} {fate fate' : Fate} (h : Fate.Agrees job job fate fate') :
    fate' = fate := by
  cases h with
  | deleted => rfl
  | skipped => rfl
  | failed h => cases h <;> rfl

/-- The same answers from a job of another name. -/
def JobTrack.named (t : JobTrack) (job : String) : JobTrack :=
  ⟨job, { t.current with id := job }, t.later.map fun j => { j with id := job }, t.route⟩

theorem JobTrack.advance_named (t : JobTrack) (job : String) :
    (t.named job).advance = t.advance.named job := by
  obtain ⟨id, current, later, route⟩ := t
  cases later <;> rfl

theorem JobTrack.shown_named (t : JobTrack) (job : String) (n : ℕ) :
    (t.named job).shown n = { t.shown n with id := job } := by
  induction n generalizing t with
  | zero => rfl
  | succ n ih => rw [shown, shown, advance_named, ih]

theorem Store.deleteTrack_named (s : Store ℚ) (job routeId : String) :
    s.deleteTrack job routeId = (s.deleteTrack "" routeId).named job := by
  unfold deleteTrack
  cases s.deleteScripts.find? routeId with
  | none => rfl
  | some script => simp [JobTrack.named, Function.comp_def]

/-- The name of a job decides neither how many looks its wait takes nor what it ends with. -/
theorem Poller.lastAnswer_named (p : Poller ℚ) (cost : ℚ) (t : JobTrack) (job : String) :
    p.lastAnswer cost (t.named job) = { p.lastAnswer cost t with id := job } := by
  have hlooks : lastLook (t.named job) p.interval p.timeout cost =
      lastLook t p.interval p.timeout cost := by
    unfold lastLook
    simp only [JobTrack.shown_named]
  rw [lastAnswer, lastAnswer, hlooks, JobTrack.shown_named]

theorem Poller.waitFailure_named (p : Poller ℚ) (cost : ℚ) (t : JobTrack) (job job' : String) :
    Option.Rel (Failure.Agrees job job') (p.waitFailure cost (t.named job))
      (p.waitFailure cost (t.named job')) := by
  unfold waitFailure
  rw [lastAnswer_named, lastAnswer_named]
  cases p.lastAnswer cost t with
  | mk id status details =>
    cases status with
    | finished => exact .none
    | failed =>
      cases details with
      | none => exact .some .unexplained
      | some e => exact .some (.same _)
    | queued | running => exact .some (.timeout p.timeout)

/-- What is told of a route on the way from one world to another. A failure is not told but answered. -/
def Fate.Told (r : Route) (w v : World (Store ℚ) ℚ) : Fate → Prop
  | .deleted => w.Told v (Orchestrator.deletedEvent r)
  | .skipped => w.Told v (Orchestrator.skippedEvent r)
  | .failed _ => True

theorem Fate.Told.later {r : Route} {u v w : World (Store ℚ) ℚ} {fate : Fate}
    (h : fate.Told r w u) (hlater : u.events <+: v.events) : fate.Told r w v := by
  cases fate with
  | deleted => exact World.Told.later h hlater
  | skipped => exact World.Told.later h hlater
  | failed f => trivial

theorem Fate.Told.earlier {r : Route} {u v w : World (Store ℚ) ℚ} {fate : Fate}
    (h : fate.Told r u v) (hearlier : w.events <+: u.events) : fate.Told r w v := by
  cases fate with
  | deleted => exact World.Told.earlier h hearlier
  | skipped => exact World.Told.earlier h hearlier
  | failed f => trivial

/-- What is set up for two platforms differs at most in the script of one route's deletion and in why
the route's applications cannot be listed. -/
structure World.DiffersAt (routeId : String) (w w' : World (Store ℚ) ℚ) : Prop where
  rest : ∃ scripts failures, w' = { w with platform := { w.platform with
    deleteScripts := scripts, listFailures := failures } }
  scripts : ∀ id, id ≠ routeId →
    w'.platform.deleteScripts.find? id = w.platform.deleteScripts.find? id
  failures : ∀ resource filters,
    (resource = .routeApplications → filters.get? .routeId ≠ some routeId) →
      w'.platform.failureOf? resource filters = w.platform.failureOf? resource filters

namespace Orchestrator

variable {o : Orchestrator ℚ} {start v w w' : World (Store ℚ) ℚ} {q r : Route} {spaceId : String}

/-- What becomes of a route of a space in a sweep that starts here. -/
def fateOf (o : Orchestrator ℚ) (start : World (Store ℚ) ℚ) (spaceId : String) (r : Route) : Fate :=
  match o.failureOf start spaceId r with
  | some f => .failed f
  | none => if start.platform.isOrphan r then .deleted else .skipped

theorem fateOf_failed {f : Failure ℚ} :
    o.fateOf start spaceId r = .failed f ↔ o.failureOf start spaceId r = some f := by
  unfold fateOf
  cases o.failureOf start spaceId r with
  | none => cases start.platform.isOrphan r <;> simp
  | some g => simp

theorem fateOf_deleted :
    o.fateOf start spaceId r = .deleted ↔
      start.platform.isOrphan r = true ∧ o.failureOf start spaceId r = none := by
  unfold fateOf
  cases o.failureOf start spaceId r with
  | none => cases start.platform.isOrphan r <;> simp
  | some g => simp

theorem mem_goneOf_iff {routes : List Route} :
    r ∈ o.goneOf start spaceId routes ↔
      r ∈ routes ∧ o.fateOf start spaceId r = .deleted := by
  rw [goneOf, List.mem_filter, Bool.and_eq_true, Option.isNone_iff_eq_none, fateOf_deleted]

theorem mem_failuresOf_iff {routes : List Route} {id : String} {f : Failure ℚ} :
    (id, f) ∈ o.failuresOf start spaceId routes ↔
      ∃ q ∈ routes, q.id = id ∧ o.fateOf start spaceId q = .failed f := by
  rw [failuresOf, List.mem_filterMap]
  refine exists_congr fun q => and_congr_right fun _ => ?_
  rw [fateOf_failed, Option.map_eq_some_iff]
  constructor
  · rintro ⟨g, hg, ⟨⟩⟩
    exact ⟨rfl, hg⟩
  · rintro ⟨rfl, hf⟩
    exact ⟨f, hf, rfl⟩

/-- How a sweep that has handled some routes tells of them. -/
structure Accounted (o : Orchestrator ℚ) (start : World (Store ℚ) ℚ) (spaceId : String)
    (handled : List Route) (sofar : Sweep ℚ) (w : World (Store ℚ) ℚ) : Prop where
  swept : SweptTo o start spaceId handled sofar w
  grown : start.events <+: w.events
  told : ∀ q ∈ handled, (o.fateOf start spaceId q).Told q start w

/-- A route that comes next is not among those deleted. -/
theorem SweptTo.notMem_deleted {handled todo : List Route} {sofar : Sweep ℚ}
    (h : SweptTo o start spaceId handled sofar w)
    (hall : start.platform.routesOf spaceId = handled ++ r :: todo) : r.id ∉ sofar.deleted := by
  intro hmem
  rw [h.deleted] at hmem
  exact id_notMem_handled hall ((List.filter_sublist.map Route.id).subset hmem)

/-- A route that was just handled is among those deleted only if it is. -/
theorem SweptTo.mem_deleted_iff {handled todo : List Route} {next : Sweep ℚ}
    (h : SweptTo o start spaceId (handled ++ [r]) next w)
    (hall : start.platform.routesOf spaceId = handled ++ r :: todo) :
    r.id ∈ next.deleted ↔ o.fateOf start spaceId r = .deleted := by
  rw [h.deleted, List.mem_map]
  constructor
  · rintro ⟨q, hq, hid⟩
    obtain ⟨hmem, hfate⟩ := mem_goneOf_iff.mp hq
    rcases List.mem_append.mp hmem with hmem | hmem
    · exact absurd (hid ▸ List.mem_map_of_mem hmem) (id_notMem_handled hall)
    · rwa [← List.mem_singleton.mp hmem]
  · intro hfate
    exact ⟨r, mem_goneOf_iff.mpr ⟨List.mem_append_right _ (List.mem_singleton_self r), hfate⟩, rfl⟩

theorem SweptTo.mem_failures_iff {handled todo : List Route} {next : Sweep ℚ}
    (h : SweptTo o start spaceId (handled ++ [r]) next w)
    (hall : start.platform.routesOf spaceId = handled ++ r :: todo) :
    r.id ∈ next.failures.map Prod.fst ↔ ∃ f, o.fateOf start spaceId r = .failed f := by
  rw [h.failures, List.mem_map]
  constructor
  · rintro ⟨⟨id, f⟩, hf, hid⟩
    obtain ⟨q, hmem, hq, hfate⟩ := mem_failuresOf_iff.mp hf
    rcases List.mem_append.mp hmem with hmem | hmem
    · exact absurd (hq.trans hid ▸ List.mem_map_of_mem hmem) (id_notMem_handled hall)
    · exact ⟨f, by rwa [← List.mem_singleton.mp hmem]⟩
  · rintro ⟨f, hfate⟩
    exact ⟨(r.id, f), mem_failuresOf_iff.mpr
      ⟨r, List.mem_append_right _ (List.mem_singleton_self r), rfl, hfate⟩, rfl⟩

/-- What is told of one more route is what becomes of it. -/
theorem SweptTo.told {handled todo : List Route} {sofar next : Sweep ℚ}
    (h : SweptTo o start spaceId handled sofar w)
    (h' : SweptTo o start spaceId (handled ++ [r]) next v)
    (hall : start.platform.routesOf spaceId = handled ++ r :: todo)
    (hends : Ends (o.sweepRoute sofar r) w (.ok next) v) :
    (o.fateOf start spaceId r).Told r w v := by
  obtain ⟨enough, hrun⟩ := hends
  have htold := sweepRoute_told (hrun enough le_rfl)
  have hbefore := h.notMem_deleted hall
  have hdeleted := h'.mem_deleted_iff hall
  have hfailed := h'.mem_failures_iff hall
  -- What the sweep has recorded of the route says which way the round went.
  cases hfate : o.fateOf start spaceId r with
  | deleted =>
    have hmem := hdeleted.mpr hfate
    rcases htold with ⟨-, htold⟩ | ⟨rfl, -⟩ | ⟨hsame, -⟩
    · exact htold
    · exact absurd hmem hbefore
    · exact absurd (hsame ▸ hmem) hbefore
  | skipped =>
    rcases htold with ⟨hmem, -⟩ | ⟨-, htold⟩ | ⟨-, hmem⟩
    · rw [hfate] at hdeleted
      cases hdeleted.mp hmem
    · exact htold
    · obtain ⟨f, hf⟩ := hfailed.mp hmem
      rw [hfate] at hf
      cases hf
  | failed f => trivial

/-- Handling one more route keeps the account. -/
theorem Accounted.step {handled todo : List Route} {sofar : Sweep ℚ}
    (hw : Sweepable o.poller start) (h : Accounted o start spaceId handled sofar w)
    (hall : start.platform.routesOf spaceId = handled ++ r :: todo) :
    ∃ next v, Ends (o.sweepRoute sofar r) w (.ok next) v ∧
      Accounted o start spaceId (handled ++ [r]) next v := by
  obtain ⟨next, v, hends, hswept⟩ := h.swept.step hw hall
  have hgrown := (onlyTells_operations.sweepRoute o onlyTells_listFirst sofar r).of_ends hends
  refine ⟨next, v, hends, hswept, h.grown.trans hgrown, ?_⟩
  intro q hq
  rcases List.mem_append.mp hq with hq | hq
  · exact (h.told q hq).later hgrown
  · obtain rfl := List.mem_singleton.mp hq
    exact (h.swept.told hswept hall hends).earlier h.grown

theorem Accounted.run {handled todo : List Route} {sofar : Sweep ℚ}
    (hw : Sweepable o.poller start) (h : Accounted o start spaceId handled sofar w)
    (hall : start.platform.routesOf spaceId = handled ++ todo) :
    ∃ final v, Ends (todo.foldlM (sweepRoute o) sofar) w (.ok final) v ∧
      Accounted o start spaceId (start.platform.routesOf spaceId) final v := by
  exact Ends.foldlM (fun _ _ _ _ _ hall h => h.step hw hall) hall h

/-- What a sweep from one world to another makes of the routes of a space, and what it answers. -/
structure Fared (routes : List Route) (fate : Route → Fate) (w v : World (Store ℚ) ℚ)
    (outcome : Except (Failure ℚ) (List String)) : Prop where
  gone : ∀ r ∈ routes, r ∉ v.platform.routes.items ↔ fate r = .deleted
  told : ∀ r ∈ routes, (fate r).Told r w v
  succeeded : (∀ r ∈ routes, ∀ f, fate r ≠ .failed f) →
    ∃ ids, outcome = .ok ids ∧ ∀ id, id ∈ ids ↔ ∃ r ∈ routes, r.id = id ∧ fate r = .deleted
  reported : ∀ r ∈ routes, ∀ f, fate r = .failed f →
    ∃ failures, outcome = .error (.orphans failures) ∧
      ∀ id g, (id, g) ∈ failures ↔ ∃ q ∈ routes, q.id = id ∧ fate q = .failed g

/-- The routes of a space are listed before the first is handled. -/
theorem deleteOrphanedRoutes_lists (hspace : o.spaceId = some spaceId) (hne : spaceId ≠ "")
    (hpaged : 0 < w.platform.pageSize)
    (hlist : w.platform.failureOf? .spaceRoutes [(.spaceId, spaceId)] = none) :
    ∃ requests, World.Swept w (w.logged requests) [] [] ∧
      ∀ {final : Sweep ℚ} {v : World (Store ℚ) ℚ},
        Ends ((w.platform.routesOf spaceId).foldlM (sweepRoute o) ⟨[], []⟩) (w.logged requests)
          (.ok final) v →
        Ends o.deleteOrphanedRoutes w
          (if final.failures.isEmpty then .ok final.deleted else .error (.orphans final.failures)) v := by
  have hrequire : Ends (o.requireSpace (σ := Store ℚ)) w (.ok spaceId) w := by
    rw [requireSpace_of_target (by rwa [hspace]), hspace]
    exact Ends.pure spaceId w
  have hroutes := Store.listAll_ends hpaged .spaceRoutes [(.spaceId, spaceId)]
  rw [Store.listing_routesOf spaceId hlist] at hroutes
  have hlogged := World.Swept.logged w .spaceRoutes [(.spaceId, spaceId)] 1
    (w.platform.pagesRead .spaceRoutes [(.spaceId, spaceId)])
  refine ⟨_, hlogged, ?_⟩
  intro final v hsweep
  refine hrequire.bind (hroutes.bind (hsweep.bind ?_))
  split
  · exact Ends.pure _ v
  · exact Ends.throw _ v

/-- A sweep comes to its end, and each route of the space fares as it was to. -/
theorem deleteOrphanedRoutes_fares (hspace : o.spaceId = some spaceId) (hne : spaceId ≠ "")
    (hw : Sweepable o.poller w)
    (hlist : w.platform.failureOf? .spaceRoutes [(.spaceId, spaceId)] = none) :
    ∃ outcome v, Ends o.deleteOrphanedRoutes w outcome v ∧
      Fared (w.platform.routesOf spaceId) (o.fateOf w spaceId) w v outcome := by
  obtain ⟨requests, hlogged, hends⟩ := deleteOrphanedRoutes_lists hspace hne hw.pageSize hlist
  have hstart : Accounted o w spaceId [] ⟨[], []⟩ (w.logged requests) :=
    ⟨⟨hlogged, rfl, rfl⟩, List.prefix_rfl, fun q hq => nomatch hq⟩
  obtain ⟨final, v, hsweep, hv⟩ := hstart.run hw rfl
  refine ⟨_, v, hends hsweep, ?_, hv.told, ?_, ?_⟩
  · intro r hr
    rw [notMem_routes_iff hv.swept.world (List.mem_of_mem_filter hr), mem_goneOf_iff]
    exact and_iff_right hr
  · intro hnone
    have hempty : final.failures = [] := by
      rw [hv.swept.failures]
      apply List.eq_nil_iff_forall_not_mem.mpr
      rintro ⟨id, f⟩ hf
      obtain ⟨q, hq, -, hfate⟩ := mem_failuresOf_iff.mp hf
      exact hnone q hq f hfate
    refine ⟨final.deleted, by rw [hempty]; rfl, ?_⟩
    intro id
    rw [hv.swept.deleted, List.mem_map]
    refine exists_congr fun q => ?_
    rw [mem_goneOf_iff, and_assoc, and_comm (a := q.id = id)]
  · intro r hr f hfate
    have hmem : (r.id, f) ∈ final.failures := by
      rw [hv.swept.failures]
      exact mem_failuresOf_iff.mpr ⟨r, hr, rfl, hfate⟩
    have hsome : ¬ final.failures.isEmpty = true := by
      rw [List.isEmpty_iff]
      exact List.ne_nil_of_mem hmem
    refine ⟨final.failures, if_neg hsome, ?_⟩
    intro id g
    rw [hv.swept.failures]
    exact mem_failuresOf_iff

end Orchestrator

namespace World.DiffersAt

open Orchestrator

variable {o : Orchestrator ℚ} {w w' : World (Store ℚ) ℚ} {q r : Route} {spaceId : String}

theorem fetchCost (h : DiffersAt r.id w w') : w'.fetchCost = w.fetchCost := by
  obtain ⟨_, _, rfl⟩ := h.rest
  rfl

theorem nextId (h : DiffersAt r.id w w') : w'.platform.nextId = w.platform.nextId := by
  obtain ⟨_, _, rfl⟩ := h.rest
  rfl

theorem routesOf (h : DiffersAt r.id w w') :
    w'.platform.routesOf spaceId = w.platform.routesOf spaceId := by
  obtain ⟨_, _, rfl⟩ := h.rest
  rfl

theorem isUsed (h : DiffersAt r.id w w') (q : Route) :
    w'.platform.isUsed q = w.platform.isUsed q := by
  obtain ⟨_, _, rfl⟩ := h.rest
  rfl

theorem refusal (h : DiffersAt r.id w w') (hq : q.id ≠ r.id) :
    w'.platform.refusal q = w.platform.refusal q := by
  apply h.failures
  intro _ hsame
  exact hq (Option.some.inj hsame)

/-- What decides whether a route is deleted is the same for all but one. -/
theorem isOrphan (h : DiffersAt r.id w w') (hq : q.id ≠ r.id) :
    w'.platform.isOrphan q = w.platform.isOrphan q := by
  rw [Store.isOrphan, Store.isOrphan, h.refusal hq, h.isUsed]

theorem sweepFailure (h : DiffersAt r.id w w') (hq : q.id ≠ r.id) (p : Poller ℚ)
    (job job' : String) :
    Option.Rel (Failure.Agrees job job') (sweepFailure p w.fetchCost w.platform job q)
      (Orchestrator.sweepFailure p w'.fetchCost w'.platform job' q) := by
  have htrack : w'.platform.deleteTrack "" q.id = w.platform.deleteTrack "" q.id := by
    unfold Store.deleteTrack
    rw [h.scripts q.id hq]
  unfold Orchestrator.sweepFailure
  rw [h.refusal hq, h.isUsed, h.fetchCost]
  cases q.serves with
  | true => exact .none
  | false =>
    cases w.platform.refusal q with
    | some f => exact .some (.same f)
    | none =>
      cases w.platform.isUsed q with
      | true => exact .none
      | false =>
        rw [Store.deleteTrack_named _ job', htrack, Store.deleteTrack_named w.platform job]
        exact Poller.waitFailure_named p w.fetchCost _ job job'

theorem fateOf (h : DiffersAt r.id w w') (hq : q.id ≠ r.id) :
    Fate.Agrees (sweepJob w.platform spaceId q) (sweepJob w'.platform spaceId q)
      (o.fateOf w spaceId q) (o.fateOf w' spaceId q) := by
  have hfailure : Option.Rel (Failure.Agrees _ _) (o.failureOf w spaceId q)
      (o.failureOf w' spaceId q) := h.sweepFailure hq o.poller _ _
  unfold Orchestrator.fateOf
  rw [h.isOrphan hq]
  generalize o.failureOf w spaceId q = failure, o.failureOf w' spaceId q = failure' at hfailure ⊢
  cases hfailure with
  | some hagrees => exact .failed hagrees
  | none =>
    cases w.platform.isOrphan q with
    | true => exact .deleted
    | false => exact .skipped

/-- The jobs have the same names where the one route is to be deleted in both sweeps or in neither. -/
theorem sweepJob (h : DiffersAt r.id w w') (hr : r ∈ w.platform.routes.items)
    (hsame : w'.platform.isOrphan r = w.platform.isOrphan r) (q : Route) :
    sweepJob w'.platform spaceId q = sweepJob w.platform spaceId q := by
  have horphans : w'.platform.orphansOf spaceId = w.platform.orphansOf spaceId := by
    rw [Store.orphansOf, Store.orphansOf, h.routesOf]
    refine List.filter_congr fun q hq => ?_
    -- Of the one route it is assumed, of all others it follows.
    by_cases hid : q.id = r.id
    · rwa [Register.eq_of_key (List.mem_of_mem_filter hq) hr hid]
    · exact h.isOrphan hid
  rw [Orchestrator.sweepJob, Orchestrator.sweepJob, horphans, h.nextId]

end World.DiffersAt

namespace Orchestrator

variable {o : Orchestrator ℚ} {w w' : World (Store ℚ) ℚ} {r : Route} {spaceId : String}

/-- A sweep handles each route on its own. Where two platforms differ at most in what is set up for one
route of the space, a sweep of either comes to its end, every other route fares the same in both, and
where some fail, the failures of all are reported together, that of the one route among them. -/
theorem deleteOrphanedRoutes_isolates (hspace : o.spaceId = some spaceId) (hne : spaceId ≠ "")
    (hr : r ∈ w.platform.routesOf spaceId) (hdiffers : World.DiffersAt r.id w w')
    (hw : Sweepable o.poller w) (hw' : Sweepable o.poller w')
    (hlist : w.platform.failureOf? .spaceRoutes [(.spaceId, spaceId)] = none) :
    (∃ outcome v, Ends o.deleteOrphanedRoutes w outcome v ∧
      Fared (w.platform.routesOf spaceId) (o.fateOf w spaceId) w v outcome) ∧
    (∃ outcome v, Ends o.deleteOrphanedRoutes w' outcome v ∧
      Fared (w.platform.routesOf spaceId) (o.fateOf w' spaceId) w' v outcome) ∧
    ∀ q ∈ w.platform.routesOf spaceId, q ≠ r →
      Fate.Agrees (sweepJob w.platform spaceId q) (sweepJob w'.platform spaceId q)
        (o.fateOf w spaceId q) (o.fateOf w' spaceId q) ∧
      (w'.platform.isOrphan r = w.platform.isOrphan r →
        o.fateOf w' spaceId q = o.fateOf w spaceId q) := by
  have hlist' : w'.platform.failureOf? .spaceRoutes [(.spaceId, spaceId)] = none := by
    rw [hdiffers.failures .spaceRoutes _ (fun h => nomatch h)]
    exact hlist
  have hfares' := deleteOrphanedRoutes_fares hspace hne hw' hlist'
  rw [hdiffers.routesOf] at hfares'
  refine ⟨deleteOrphanedRoutes_fares hspace hne hw hlist, hfares', ?_⟩
  intro q hq hother
  have hid : q.id ≠ r.id := by
    intro hsame
    exact hother (Register.eq_of_key (List.mem_of_mem_filter hq) (List.mem_of_mem_filter hr) hsame)
  have hagrees : Fate.Agrees (sweepJob w.platform spaceId q) (sweepJob w'.platform spaceId q)
      (o.fateOf w spaceId q) (o.fateOf w' spaceId q) := hdiffers.fateOf hid
  refine ⟨hagrees, ?_⟩
  intro hsame
  rw [hdiffers.sweepJob (List.mem_of_mem_filter hr) hsame] at hagrees
  exact hagrees.eq

/-- The stranded world with one more route whose applications cannot be listed. -/
def unlistedWorld (failure : Failure ℚ) : World (Store ℚ) ℚ :=
  { strandedWorld with platform := { strandedWorld.platform with
      listFailures := strandedWorld.platform.listFailures ++
        [⟨.routeApplications, [(.routeId, "r1")], failure⟩] } }

def refusedRoute : Route := ⟨"r1", "d", "s", "a", "", none⟩

def endlessRoute : Route := ⟨"r5", "d", "s", "e", "", none⟩

theorem unlistedWorld_differs (failure : Failure ℚ) :
    World.DiffersAt refusedRoute.id strandedWorld (unlistedWorld failure) where
  rest := ⟨_, _, rfl⟩
  scripts _ _ := rfl
  failures := by
    intro resource filters hother
    have hnone : ([⟨.routeApplications, [(.routeId, "r1")], failure⟩].find?
        fun f : ListFailure ℚ => f.resource == resource && filters.includes f.filters) = none := by
      rw [List.find?_singleton, if_neg]
      intro h
      simp only [Filters.includes, List.all_cons, List.all_nil, Bool.and_true, Bool.and_eq_true,
        beq_iff_eq] at h
      exact hother h.1.symm h.2
    simp only [Store.failureOf?, unlistedWorld, List.find?_append, hnone, Option.or_none]

theorem unlistedWorld_sweepable {failure : Failure ℚ} (h : failure.isContained = true) :
    Sweepable strandedSpace.poller (unlistedWorld failure) where
  pageSize := strandedWorld_sweepable.pageSize
  known := strandedWorld_sweepable.known
  contained := by
    intro f hf _
    rcases List.mem_append.mp hf with hf | hf
    · exact strandedWorld_sweepable.contained f hf ‹_›
    · obtain rfl := List.mem_singleton.mp hf
      exact h
  uncancelled := rfl
  cost := strandedWorld_sweepable.cost
  time := strandedWorld_sweepable.time

theorem refusedRoute_listed : refusedRoute ∈ strandedWorld.platform.routesOf "s" := by decide +kernel

theorem endlessRoute_listed : endlessRoute ∈ strandedWorld.platform.routesOf "s" := by decide +kernel

theorem fateOf_endlessRoute :
    strandedSpace.fateOf strandedWorld "s" endlessRoute = .failed (.pollTimeout "job-2" 5) := by
  with_unfolding_all rfl

/-- The route's deletion gets the first job where no other is asked for. -/
theorem fateOf_endlessRoute_refused :
    strandedSpace.fateOf (unlistedWorld (.platform 503 2 "busy" "CF-Busy")) "s" endlessRoute =
      .failed (.pollTimeout "job-1" 5) := by
  with_unfolding_all rfl

theorem deleteOrphanedRoutes_isolates_refused :
    let w := unlistedWorld (.platform 503 2 "busy" "CF-Busy")
    (strandedSpace.spaceId = some "s" ∧ "s" ≠ "" ∧
      refusedRoute ∈ strandedWorld.platform.routesOf "s" ∧
      World.DiffersAt refusedRoute.id strandedWorld w ∧
      Sweepable strandedSpace.poller strandedWorld ∧ Sweepable strandedSpace.poller w ∧
      strandedWorld.platform.failureOf? .spaceRoutes [(.spaceId, "s")] = none) ∧
    (∃ failures v, Ends strandedSpace.deleteOrphanedRoutes w (.error (.orphans failures)) v ∧
      ("r1", .platform 503 2 "busy" "CF-Busy") ∈ failures ∧
      ("r5", .pollTimeout "job-1" 5) ∈ failures) ∧
    Fate.Agrees "job-2" "job-1" (strandedSpace.fateOf strandedWorld "s" endlessRoute)
      (strandedSpace.fateOf w "s" endlessRoute) := by
  intro w
  have hlist : strandedWorld.platform.failureOf? .spaceRoutes [(.spaceId, "s")] = none := rfl
  have hw : Sweepable strandedSpace.poller w := unlistedWorld_sweepable rfl
  have hdiffers : World.DiffersAt refusedRoute.id strandedWorld w := unlistedWorld_differs _
  obtain ⟨-, ⟨outcome, v, hends, hfared⟩, hothers⟩ := deleteOrphanedRoutes_isolates rfl (by decide)
    refusedRoute_listed hdiffers strandedWorld_sweepable hw hlist
  refine ⟨⟨rfl, by decide, refusedRoute_listed, hdiffers, strandedWorld_sweepable, hw, hlist⟩, ?_, ?_⟩
  · obtain ⟨failures, rfl, hfailures⟩ :=
      hfared.reported endlessRoute endlessRoute_listed _ fateOf_endlessRoute_refused
    refine ⟨failures, v, hends, (hfailures _ _).mpr ?_, (hfailures _ _).mpr ?_⟩
    · exact ⟨refusedRoute, refusedRoute_listed, rfl, by with_unfolding_all rfl⟩
    · exact ⟨endlessRoute, endlessRoute_listed, rfl, fateOf_endlessRoute_refused⟩
  · have hjob : sweepJob strandedWorld.platform "s" endlessRoute = "job-2" := by decide +kernel
    have hjob' : sweepJob w.platform "s" endlessRoute = "job-1" := by decide +kernel
    have hagrees := (hothers endlessRoute endlessRoute_listed (by decide)).1
    rwa [hjob, hjob'] at hagrees

/-- An error of a kind that is not recorded leaves the routes after it untried, although each route is
to be handled on its own. And an error that names a job is not the same in two sweeps if one of them
has asked for more deletions before. -/
theorem deleteOrphanedRoutes_not_alike :
    (World.DiffersAt refusedRoute.id strandedWorld (unlistedWorld (.platform 503 2 "busy" "CF-Busy")) ∧
      ∃ failures failures' v v',
        Ends strandedSpace.deleteOrphanedRoutes strandedWorld (.error (.orphans failures)) v ∧
        Ends strandedSpace.deleteOrphanedRoutes (unlistedWorld (.platform 503 2 "busy" "CF-Busy"))
          (.error (.orphans failures')) v' ∧
        ("r5", .pollTimeout "job-2" 5) ∈ failures ∧ ("r5", .pollTimeout "job-2" 5) ∉ failures') ∧
    (World.DiffersAt refusedRoute.id strandedWorld (unlistedWorld (.unreachable "refused")) ∧
      let stopped := strandedSpace.deleteOrphanedRoutes.run
        { unlistedWorld (.unreachable "refused") with patience := 9 }
      stopped.1 = .error (.unreachable "refused") ∧ stopped.2.platform.deletions = []) := by
  have hlist : strandedWorld.platform.failureOf? .spaceRoutes [(.spaceId, "s")] = none := rfl
  have hlist' : (unlistedWorld (.platform 503 2 "busy" "CF-Busy")).platform.failureOf? .spaceRoutes
      [(.spaceId, "s")] = none := rfl
  obtain ⟨_, v, hends, hfared⟩ := deleteOrphanedRoutes_fares (o := strandedSpace) rfl (by decide)
    strandedWorld_sweepable hlist
  obtain ⟨_, v', hends', hfared'⟩ := deleteOrphanedRoutes_fares (o := strandedSpace) rfl (by decide)
    (unlistedWorld_sweepable rfl) hlist'
  obtain ⟨failures, rfl, hfailures⟩ :=
    hfared.reported endlessRoute endlessRoute_listed _ fateOf_endlessRoute
  obtain ⟨failures', rfl, hfailures'⟩ :=
    hfared'.reported endlessRoute endlessRoute_listed _ fateOf_endlessRoute_refused
  refine ⟨⟨unlistedWorld_differs _, failures, failures', v, v', hends, hends', ?_, ?_⟩,
    unlistedWorld_differs _, ?_, ?_⟩
  · exact (hfailures _ _).mpr ⟨endlessRoute, endlessRoute_listed, rfl, fateOf_endlessRoute⟩
  · intro hmem
    obtain ⟨q, hq, hid, hfate⟩ := (hfailures' _ _).mp hmem
    have hsame : q = endlessRoute := Register.eq_of_key (List.mem_of_mem_filter hq)
      (List.mem_of_mem_filter endlessRoute_listed) hid
    rw [hsame, fateOf_endlessRoute_refused] at hfate
    simp at hfate
  · with_unfolding_all rfl
  · with_unfolding_all rfl

end Orchestrator

end PlatformRoutes
