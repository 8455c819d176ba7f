import PlatformRoutes.Proofs.Existence

namespace PlatformRoutes

/-- An operation leaves the platform in one state only. -/
theorem Ends.platform_unique {σ τ α : Type} {x : Run σ τ α} {u v w : World σ τ}
    {r r' : Except (Failure τ) α} (h : Ends x w r u) (h' : Ends x w r' v) :
    u.platform = v.platform := by
  have hsame := congrArg World.platform (h.outcome_unique h').2
  exact hsame

namespace Store

variable {τ α β : Type} {x : Run (Store τ) τ α} {f : α → Run (Store τ) τ β} {a : α}
  {w v : World (Store τ) τ} {s : Store τ}

/-- Given patience enough, an operation comes to an outcome and leaves nothing but requests behind. -/
def Learns (x : Run (Store τ) τ α) (w : World (Store τ) τ) (outcome : Except (Failure τ) α) : Prop :=
  ∃ requests, Ends x w outcome (w.logged requests)

namespace Learns

theorem pure (a : α) (w : World (Store τ) τ) : Learns (pure a) w (.ok a) := by
  refine ⟨[], ?_⟩
  rw [logged_nil]
  exact Ends.pure a w

theorem throw (e : Failure τ) (w : World (Store τ) τ) :
    Learns (throw e : Run (Store τ) τ α) w (.error e) := by
  refine ⟨[], ?_⟩
  rw [logged_nil]
  exact Ends.throw e w

theorem bind {outcome : Except (Failure τ) β} (hx : Learns x w (.ok a))
    (hf : ∀ requests, Learns (f a) (w.logged requests) outcome) : Learns (x >>= f) w outcome := by
  obtain ⟨before, hx⟩ := hx
  obtain ⟨later, hf⟩ := hf before
  rw [logged_logged] at hf
  exact ⟨before ++ later, hx.bind hf⟩

theorem bind_error {e : Failure τ} (hx : Learns x w (.error e)) : Learns (x >>= f) w (.error e) := by
  obtain ⟨requests, hx⟩ := hx
  exact ⟨requests, hx.bind_error⟩

theorem attempt {outcome : Except (Failure τ) α} (hx : Learns x w outcome) :
    Learns (attempt x) w (.ok outcome) := by
  obtain ⟨requests, hx⟩ := hx
  exact ⟨requests, hx.attempt⟩

theorem unique {r r' : Except (Failure τ) α} (h : Learns x w r) (h' : Ends x w r' v) : r = r' := by
  obtain ⟨requests, h⟩ := h
  exact (h.outcome_unique h').1

end Learns

theorem found_learns (hpaged : 0 < w.platform.pageSize) (q : Query) :
    Learns (Run.found q) w
      ((w.platform.listing q.resource q.filters).map (List.filter q.means)) :=
  ⟨w.platform.asked q, found_ends hpaged q⟩

/-- What is made of the records found does not depend on the world. -/
theorem single_settled (kind : ResourceKind) (name : String) (found : List α) :
    ∃ outcome, ∀ w : World (Store τ) τ, Learns (Run.single kind name found) w outcome := by
  obtain ⟨outcome, -, hsingle⟩ := decides_single (τ := τ) kind name found
  refine ⟨outcome, fun w => ⟨[], ?_⟩⟩
  rw [logged_nil]
  exact hsingle w

theorem found_single_settled (s : Store τ) (q : Query) (kind : ResourceKind) (name : String) :
    ∃ outcome, ∀ w : World (Store τ) τ, 0 < w.platform.pageSize →
      w.platform.listing q.resource q.filters = s.listing q.resource q.filters →
      Learns (Run.found q >>= Run.single kind name) w outcome := by
  cases hlisting : s.listing q.resource q.filters with
  | error e =>
    refine ⟨.error e, fun w hpaged hsame => ?_⟩
    have hfound := found_learns hpaged q
    rw [hsame] at hfound
    exact hfound.bind_error
  | ok items =>
    obtain ⟨outcome, hsingle⟩ := single_settled (τ := τ) kind name (items.filter q.means)
    refine ⟨outcome, fun w hpaged hsame => ?_⟩
    have hfound := found_learns hpaged q
    rw [hsame] at hfound
    exact hfound.bind fun requests => hsingle _

theorem resolveSpace_settled (hpaged : 0 < w.platform.pageSize) (organizationId name : String) :
    ∃ outcome, Learns (Run.resolveSpace organizationId name) w outcome := by
  obtain ⟨outcome, h⟩ := found_single_settled w.platform (.space organizationId name) .space name
  exact ⟨outcome, h w hpaged rfl⟩

/-- What a name of a domain resolves to depends on the domains and on the failures set up alone. -/
theorem resolveDomain_settled (s : Store τ) (organizationId name : String) :
    ∃ outcome, ∀ w : World (Store τ) τ, 0 < w.platform.pageSize →
      w.platform.domains = s.domains → w.platform.listFailures = s.listFailures →
      Learns (Run.resolveDomain organizationId name) w outcome := by
  have hsame (w : World (Store τ) τ) (hdomains : w.platform.domains = s.domains)
      (hfailures : w.platform.listFailures = s.listFailures) (filters : Filters) :
      w.platform.listing .organizationPrivateDomains filters =
          s.listing .organizationPrivateDomains filters ∧
        w.platform.listing .sharedDomains filters = s.listing .sharedDomains filters := by
    simp only [listing, failureOf?, select, hdomains, hfailures, and_self]
  cases howned : s.listing .organizationPrivateDomains
      (Query.ownedDomain organizationId name).filters with
  | error e =>
    refine ⟨.error e, fun w hpaged hdomains hfailures => ?_⟩
    have hfound := found_learns hpaged (.ownedDomain organizationId name)
    rw [(hsame w hdomains hfailures _).1, howned] at hfound
    exact hfound.bind_error
  | ok items =>
    obtain ⟨mine, hmine⟩ := single_settled (τ := τ) .domain name
      (items.filter (Query.ownedDomain organizationId name).means)
    obtain ⟨other, hother⟩ := found_single_settled s (.sharedDomain name) .domain name
    refine ⟨if !(items.filter (Query.ownedDomain organizationId name).means).isEmpty then mine
      else other, fun w hpaged hdomains hfailures => ?_⟩
    have hfound := found_learns hpaged (.ownedDomain organizationId name)
    rw [(hsame w hdomains hfailures _).1, howned] at hfound
    refine hfound.bind fun requests => ?_
    split
    · exact hmine _
    · exact hother _ hpaged ((listing_logged requests _ _).trans (hsame w hdomains hfailures _).2)

/-- A name resolves alike wherever the domains and the failures set up are the same. -/
theorem resolveDomain_elsewhere {organizationId name : String} {domain : Domain}
    (h : Learns (Run.resolveDomain organizationId name) w (.ok domain))
    (hpaged : 0 < w.platform.pageSize) (hpaged' : 0 < v.platform.pageSize)
    (hdomains : v.platform.domains = w.platform.domains)
    (hfailures : v.platform.listFailures = w.platform.listFailures) :
    Learns (Run.resolveDomain organizationId name) v (.ok domain) := by
  obtain ⟨outcome, hsettled⟩ := resolveDomain_settled w.platform organizationId name
  obtain ⟨requests, hends⟩ := h
  obtain rfl := (hsettled w hpaged rfl rfl).unique hends
  exact hsettled v hpaged' hdomains hfailures

/-- Where no failure is set up, a lookup of a route comes to what is stored under its key. -/
theorem findRoute_learns (hpaged : 0 < w.platform.pageSize) (calm : w.platform.listFailures = [])
    (domain : Domain) (host path : Option String) (found : Option Route)
    (hfound : w.platform.routesAt (.of domain.id host path) = found.toList) :
    Learns (Run.findRoute domain host path) w (.ok found) := by
  have hlisted := listing_routeFilters w.platform domain host path
  rw [failureOf?, calm, hfound] at hlisted
  have hlearns := found_learns hpaged (.route domain host path)
  rw [show (w.platform.listing .routes (Query.route domain host path).filters).map
    (List.filter (Query.route domain host path).means) = .ok found.toList from hlisted] at hlearns
  rw [Run.findRoute_eq_found]
  refine hlearns.bind fun requests => ?_
  cases found with
  | none => exact Learns.pure none _
  | some r => exact Learns.pure (some r) _

theorem resolveRoute_learns (hpaged : 0 < w.platform.pageSize) (calm : w.platform.listFailures = [])
    {domain : Domain} {host path : Option String} {r : Route}
    (hone : w.platform.routesAt (.of domain.id host path) = [r]) :
    Learns (Run.resolveRoute domain host path) w (.ok r) :=
  (findRoute_learns hpaged calm domain host path (some r) hone).bind fun _ =>
    Learns.pure r _

end Store

namespace Poller

variable {p : Poller ℚ} {cost : ℚ} {t : JobTrack} {job : Job}

/-- No answer is terminal up to the look at which the time is used up. -/
def GivesUp (p : Poller ℚ) (cost : ℚ) (t : JobTrack) : Prop :=
  ∃ last : ℕ, IsLeast {k : ℕ | 1 ≤ k ∧ p.timeout ≤ k * cost + (k - 1) * p.interval} last ∧
    ∀ k < last, (t.shown k).status.isTerminal = false

/-- A wait that does not end with a terminal answer has used up its time. -/
theorem givesUp_of_open (hpos : 0 < p.interval + cost)
    (hopen : (p.lastAnswer cost t).status.isTerminal = false) : p.GivesUp cost t := by
  have hleast := lastLook_isLeast t p.timeout hpos
  have hlimit := lookLimit_isLeast p.timeout hpos
  have hnone (k : ℕ) (hk : k < lastLook t p.interval p.timeout cost) :
      (t.shown k).status.isTerminal = false := by
    rw [Bool.eq_false_iff]
    intro hterminal
    have hle := hleast.2 ⟨Nat.le_add_left 1 k, .inl (by rwa [Nat.add_sub_cancel])⟩
    have hlast : k = lastLook t p.interval p.timeout cost - 1 := by omega
    rw [lastAnswer, ← hlast, hterminal] at hopen
    cases hopen
  rcases hleast.1.2 with hterminal | htime
  · rw [lastAnswer, hterminal] at hopen
    cases hopen
  · refine ⟨_, ⟨⟨hleast.1.1, htime⟩, fun k hk => ?_⟩, hnone⟩
    exact hleast.2 ⟨hk.1, .inr hk.2⟩

theorem waitFailure_cases {f : Failure ℚ} (hpos : 0 < p.interval + cost)
    (hf : p.waitFailure cost t = some f) :
    (∃ job, p.Sees cost t job ∧ job.status = .failed ∧
      f = match job.details with
        | some e => .jobFailed e.code e.description e.errorCode
        | none => .jobFailed 0 ("Job " ++ job.id ++ " failed without error details") "") ∨
      p.GivesUp cost t ∧ f = .pollTimeout t.id p.timeout := by
  have hsees := sees_lastAnswer (t := t) hpos
  have hgives := givesUp_of_open (t := t) hpos
  unfold waitFailure at hf
  cases hstatus : (p.lastAnswer cost t).status with
  | finished =>
    rw [hstatus] at hf
    cases hf
  | failed =>
    rw [hstatus] at hf hsees
    cases hf
    exact .inl ⟨_, hsees rfl, hstatus, failureOf_eq _⟩
  | queued | running =>
    rw [hstatus] at hf hgives
    cases hf
    exact .inr ⟨hgives rfl, rfl⟩

end Poller

/-- What is shown for the deletion of a route, asked for now. -/
def Store.deletionTrack {τ : Type} (s : Store τ) (routeId : String) : JobTrack :=
  s.deleteTrack (jobName s.nextId) routeId

/-- Deleting the route that a spelling means returns exactly if its job is seen finished in time, and
has then taken the route and what is mapped to it. Otherwise it fails with what the failed job tells
or with the time that is up, and has taken nothing. -/
structure Orchestrator.DeletesExactly (o : Orchestrator ℚ) (w : World (Store ℚ) ℚ) (name : String)
    (host path : Option String) (r : Route) : Prop where
  returns_iff : (∃ v, Ends (o.delete name host path) w (.ok ()) v) ↔
    o.poller.SeesFinished w.fetchCost (w.platform.deletionTrack r.id)
  taken : ∀ v, Ends (o.delete name host path) w (.ok ()) v →
    v.platform.routes.items = w.platform.routes.items.filter (· != r) ∧
    v.platform.associations = w.platform.associations.filter (·.2 != r.id)
  kept : ¬ o.poller.SeesFinished w.fetchCost (w.platform.deletionTrack r.id) →
    ∃ f v, Ends (o.delete name host path) w (.error f) v ∧
      v.platform.routes.items = w.platform.routes.items ∧
      v.platform.associations = w.platform.associations ∧
      ((∃ job, o.poller.Sees w.fetchCost (w.platform.deletionTrack r.id) job ∧ job.status = .failed ∧
        f = match job.details with
          | some e => .jobFailed e.code e.description e.errorCode
          | none => .jobFailed 0 ("Job " ++ job.id ++ " failed without error details") "") ∨
      o.poller.GivesUp w.fetchCost (w.platform.deletionTrack r.id) ∧
        f = .pollTimeout (Store.jobName w.platform.nextId) o.poller.timeout)

namespace Orchestrator

open Store

variable {o : Orchestrator ℚ} {u v w : World (Store ℚ) ℚ} {name : String} {domain : Domain}
  {host path : Option String} {r : Route}

/-- What a world has to be like for a deletion in it to come to an end. -/
structure Settled (p : Poller ℚ) (w : World (Store ℚ) ℚ) : Prop where
  paged : 0 < w.platform.pageSize
  calm : w.platform.listFailures = []
  uncancelled : w.cancelAt = none
  cost : 0 ≤ w.fetchCost
  time : 0 < p.interval + w.fetchCost

theorem Settled.of_same {p : Poller ℚ} (hw : Settled p w)
    (hpaged : v.platform.pageSize = w.platform.pageSize)
    (hcalm : v.platform.listFailures = w.platform.listFailures) (hcost : v.fetchCost = w.fetchCost)
    (hcancel : v.cancelAt = w.cancelAt) : Settled p v where
  paged := hpaged ▸ hw.paged
  calm := hcalm.trans hw.calm
  uncancelled := hcancel.trans hw.uncancelled
  cost := hcost ▸ hw.cost
  time := hcost ▸ hw.time

/-- Deleting the only route of a key comes down to the wait for its job. -/
theorem delete_ends (hw : Settled o.poller w)
    (hdomain : Learns (Run.resolveDomain o.organizationId name) w (.ok domain))
    (hone : w.platform.routesAt (.of domain.id host path) = [r]) {failure : Option (Failure ℚ)}
    (hf : o.poller.waitFailure w.fetchCost (w.platform.deletionTrack r.id) = failure) :
    ∃ v jobs calls,
      Ends (o.delete name host path) w (match failure with | none => .ok () | some f => .error f) v ∧
      v.platform = { afterDeletion w.platform r.id failure with calls := calls, jobs := jobs } ∧
      v.fetchCost = w.fetchCost ∧ v.cancelAt = none := by
  have hsought : Learns (o.soughtRoute name host path) w (.ok (domain, r)) :=
    hdomain.bind fun requests => (resolveRoute_learns (w := w.logged requests) hw.paged hw.calm
      hone).bind fun _ => Learns.pure _ _
  obtain ⟨requests, hsought⟩ := hsought
  have hstored : r ∈ w.platform.routes.items :=
    List.mem_of_mem_filter (hone ▸ List.mem_singleton_self r)
  obtain ⟨v, jobs, looks, hends, hplatform, hsame⟩ := deleteRoute_ends (o := o)
    (w := w.logged requests) (Register.contains_iff.mpr ⟨r, hstored, rfl⟩) hw.uncancelled hw.cost
    hw.time hf
  rw [delete_eq]
  cases failure with
  | none => exact ⟨v, jobs, _, hsought.bind hends, hplatform, hsame⟩
  | some f => exact ⟨v, jobs, _, hsought.bind hends, hplatform, hsame⟩

/-- No other route has the id of a route that is stored. -/
theorem items_erase {s : Store ℚ} (hr : r ∈ s.routes.items) :
    (s.routes.erase r.id).items = s.routes.items.filter (· != r) := by
  refine List.filter_congr fun q hq => ?_
  rw [Bool.eq_iff_iff, bne_iff_ne, bne_iff_ne]
  exact not_congr ⟨fun hid => Register.eq_of_key hq hr hid, fun h => congrArg Route.id h⟩

/-- A deletion that returns has taken the route away. -/
theorem delete_leaves (hw : Settled o.poller w)
    (hdomain : Learns (Run.resolveDomain o.organizationId name) w (.ok domain))
    (hone : w.platform.routesAt (.of domain.id host path) = [r])
    (h : Ends (o.delete name host path) w (.ok ()) v) : Settled o.poller v ∧ ∃ jobs calls,
    v.platform = { (w.platform.deleting r.id).dropRoute r.id with calls := calls, jobs := jobs } := by
  cases hf : o.poller.waitFailure w.fetchCost (w.platform.deletionTrack r.id) with
  | none =>
    obtain ⟨v', jobs, calls, hends, hplatform, hcost, hcancel⟩ := delete_ends hw hdomain hone hf
    have hsame := (h.outcome_unique hends).2
    have hleft := (h.platform_unique hends).trans hplatform
    refine ⟨hw.of_same ?_ ?_ ?_ ?_, jobs, calls, hleft⟩
    · rw [hleft]
      rfl
    · rw [hleft]
      rfl
    · exact (congrArg World.fetchCost hsame).trans hcost
    · exact ((congrArg World.cancelAt hsame).trans hcancel).trans hw.uncancelled.symm
  | some f =>
    obtain ⟨v', jobs, calls, hends, -⟩ := delete_ends hw hdomain hone hf
    cases (h.outcome_unique hends).1

theorem deletesExactly (hw : Settled o.poller w)
    (hdomain : Learns (Run.resolveDomain o.organizationId name) w (.ok domain))
    (hone : w.platform.routesAt (.of domain.id host path) = [r]) :
    DeletesExactly o w name host path r := by
  have hstored : r ∈ w.platform.routes.items :=
    List.mem_of_mem_filter (hone ▸ List.mem_singleton_self r)
  have hfinished := Poller.waitFailure_eq_none_iff (t := w.platform.deletionTrack r.id) hw.time
  cases hf : o.poller.waitFailure w.fetchCost (w.platform.deletionTrack r.id) with
  | none =>
    obtain ⟨v, jobs, calls, hends, hplatform, -⟩ := delete_ends hw hdomain hone hf
    have hsees := hfinished.mp hf
    refine ⟨iff_of_true ⟨v, hends⟩ hsees, fun v' hends' => ?_, fun hnot => absurd hsees hnot⟩
    obtain ⟨-, jobs', calls', hleft⟩ := delete_leaves hw hdomain hone hends'
    rw [hleft]
    exact ⟨items_erase hstored, rfl⟩
  | some f =>
    obtain ⟨v, jobs, calls, hends, hplatform, -⟩ := delete_ends hw hdomain hone hf
    have hnot : ¬ o.poller.SeesFinished w.fetchCost (w.platform.deletionTrack r.id) := by
      rw [← hfinished, hf]
      exact Option.some_ne_none f
    have hno (v') (hends' : Ends (o.delete name host path) w (.ok ()) v') : False := by
      cases (hends'.outcome_unique hends).1
    refine ⟨iff_of_false (fun ⟨v', h⟩ => hno v' h) hnot, fun v' h => (hno v' h).elim, fun _ => ?_⟩
    refine ⟨f, v, hends, ?_, ?_, ?_⟩
    · rw [hplatform]
      rfl
    · rw [hplatform]
      rfl
    · have hcases := Poller.waitFailure_cases hw.time hf
      rwa [deletionTrack, deleteTrack_id] at hcases

/-- A world that has got a route of a key, under an id of its own, and else only requests and events
more. -/
structure Gains (w v : World (Store ℚ) ℚ) (key : RouteKey) (r : Route) : Prop where
  platform : ∃ calls, v.platform = { w.platform with
    calls := calls
    nextId := w.platform.nextId + 1
    routes := w.platform.routes.put r }
  fetchCost : v.fetchCost = w.fetchCost
  cancelAt : v.cancelAt = w.cancelAt
  key : r.key = key
  fresh : ∀ q ∈ w.platform.routes.items, q.id ≠ r.id
  last : v.platform.routes.items = w.platform.routes.items ++ [r]

namespace Gains

variable {key : RouteKey}

theorem settled (h : Gains w v key r) {p : Poller ℚ} (hw : Settled p w) : Settled p v := by
  obtain ⟨calls, hv⟩ := h.platform
  exact hw.of_same (by rw [hv]) (by rw [hv]) h.fetchCost h.cancelAt

theorem routesAt_eq (h : Gains w v key r) (hfree : w.platform.routesAt key = []) :
    v.platform.routesAt key = [r] := by
  rw [routesAt] at hfree ⊢
  rw [h.last, List.filter_append, hfree, List.nil_append, List.filter_singleton, h.key,
    beq_self_eq_true]
  rfl

theorem routes_without (h : Gains w v key r) :
    v.platform.routes.items.filter (· != r) = w.platform.routes.items := by
  rw [h.last, List.filter_append, List.filter_singleton, bne_self_eq_false, Bool.cond_false,
    List.append_nil, List.filter_eq_self]
  exact fun q hq => bne_iff_ne.mpr fun hqr => h.fresh q hq (congrArg Route.id hqr)

/-- Nothing is mapped to the route, since all that is mapped has a route of its own. -/
theorem associations_without (h : Gains w v key r)
    (hmapped : ∀ a ∈ w.platform.associations, w.platform.routes.contains a.2 = true) :
    v.platform.associations.filter (·.2 != r.id) = w.platform.associations := by
  obtain ⟨calls, hv⟩ := h.platform
  rw [hv, List.filter_eq_self]
  intro a ha
  obtain ⟨q, hq, hid⟩ := Register.contains_iff.mp (hmapped a ha)
  exact bne_iff_ne.mpr fun har => h.fresh q hq (hid.trans har)

end Gains

section Unmet

variable (hw : Settled o.poller w)
  (hdomain : Learns (Run.resolveDomain o.organizationId name) w (.ok domain))
  (hfree : w.platform.routesAt (.of domain.id host path) = [])
include hw hdomain hfree

theorem check_learns : Learns (o.check name host path) w (.ok false) :=
  hdomain.attempt.bind fun requests =>
    (findRoute_learns (w := w.logged requests) hw.paged hw.calm domain host path none
      hfree).bind fun _ => Learns.pure false _

variable (hsound : w.platform.Sound) (hstored : domain ∈ w.platform.domains.items)
include hsound hstored

/-- Where a key is free and the space is known, its route is created. -/
theorem create_ends {space : String} {ref : Ref}
    (hspace : Learns (Run.resolveSpace o.organizationId space) w (.ok ref)) :
    ∃ r v, Ends (o.create name space host path) w (.ok r) v ∧
      Gains w v (.of domain.id host path) r := by
  obtain ⟨before, hspace⟩ := hspace
  obtain ⟨middle, hdomain⟩ := resolveDomain_elsewhere (v := w.logged before) hdomain hw.paged
    hw.paged rfl rfl
  obtain ⟨later, hfound⟩ := findRoute_learns (w := (w.logged before).logged middle) hw.paged hw.calm
    domain host path none hfree
  obtain ⟨r, hrun, hkey, -, hnew, hitems⟩ := run_createRoute_new
    (s := (((w.logged before).logged middle).logged later).platform)
    (hsound.of_same rfl rfl rfl rfl (Nat.le_refl _)) hstored hfree ref.id
  have hprovided : Ends (Run.resolveOrCreateRoute domain host path ref.id) _ (.ok r) _ :=
    hfound.bind (Ends.onPlatform hrun)
  have hends : Ends (o.create name space host path) w (.ok r) _ :=
    hspace.bind (hdomain.bind (hprovided.bind ((Ends.emit _ _).bind (Ends.pure r _))))
  exact ⟨r, _, hends, ⟨_, rfl⟩, rfl, rfl, hkey, hnew, hitems⟩

/-- A creation that returns has added a route. -/
theorem create_gains {space : String} (h : Ends (o.create name space host path) w (.ok r) v) :
    Gains w v (.of domain.id host path) r := by
  obtain ⟨answer, hspace⟩ := resolveSpace_settled hw.paged o.organizationId space
  cases answer with
  | error e =>
    have hfailed : Learns (o.create name space host path) w (.error e) := hspace.bind_error
    cases hfailed.unique h
  | ok ref =>
    obtain ⟨r', v', hends, hgains⟩ := create_ends hw hdomain hfree hsound hstored hspace
    obtain ⟨hr, hsame⟩ := h.outcome_unique hends
    cases hr
    have hplatform := h.platform_unique hends
    refine ⟨?_, (congrArg World.fetchCost hsame).trans hgains.fetchCost,
      (congrArg World.cancelAt hsame).trans hgains.cancelAt, hgains.key, hgains.fresh, ?_⟩
    · rw [hplatform]
      exact hgains.platform
    · rw [hplatform]
      exact hgains.last

/-- A deletion right after the creation takes back all that the creation did. -/
theorem restored (hmapped : ∀ a ∈ w.platform.associations, w.platform.routes.contains a.2 = true)
    {space : String} (hcreated : Ends (o.create name space host path) w (.ok r) v) :
    DeletesExactly o v name host path r ∧ ∀ t, Ends (o.delete name host path) v (.ok ()) t →
      t.platform.routes.items = w.platform.routes.items ∧
      t.platform.associations = w.platform.associations ∧
      ∃ t', Ends (o.check name host path) t (.ok false) t' := by
  have hgains := create_gains hw hdomain hfree hsound hstored hcreated
  have hv : Settled o.poller v := hgains.settled hw
  have hone := hgains.routesAt_eq hfree
  obtain ⟨calls, hplatform⟩ := hgains.platform
  have hresolved := resolveDomain_elsewhere hdomain hw.paged hv.paged (by rw [hplatform])
    (by rw [hplatform])
  have hexact := deletesExactly hv hresolved hone
  refine ⟨hexact, fun t hdeleted => ?_⟩
  obtain ⟨hroutes, hassociations⟩ := hexact.taken t hdeleted
  have hrestored := hroutes.trans hgains.routes_without
  refine ⟨hrestored, hassociations.trans (hgains.associations_without hmapped), ?_⟩
  obtain ⟨ht, jobs, calls, hleft⟩ := delete_leaves hv hresolved hone hdeleted
  have hagain := resolveDomain_elsewhere hresolved hv.paged ht.paged (by rw [hleft]; rfl)
    (by rw [hleft]; rfl)
  obtain ⟨requests, hcheck⟩ := check_learns ht hagain (by rwa [routesAt, hrestored])
  exact ⟨_, hcheck⟩

end Unmet

/-- Deletion is exact. On any platform that can be reached, with no failure set up and routes stored
for all that is mapped, deleting the only route that a spelling means does so exactly; and where none
is meant, a deletion that returns after a creation has taken back all that the creation did. -/
theorem delete_exact (hreached : w.platform.Reachable) (calm : w.platform.listFailures = [])
    (hmapped : ∀ a ∈ w.platform.associations, w.platform.routes.contains a.2 = true)
    (hcancel : w.cancelAt = none) (hcost : 0 ≤ w.fetchCost)
    (htime : 0 < o.poller.interval + w.fetchCost)
    (hdomain : Ends (Run.resolveDomain o.organizationId name) w (.ok domain) u)
    (host path : Option String) :
    (∀ r, w.platform.routesAt (.of domain.id host path) = [r] →
      DeletesExactly o w name host path r) ∧
    (w.platform.routesAt (.of domain.id host path) = [] →
      ∀ space r v, Ends (o.create name space host path) w (.ok r) v →
        DeletesExactly o v name host path r ∧ ∀ t, Ends (o.delete name host path) v (.ok ()) t →
          t.platform.routes.items = w.platform.routes.items ∧
          t.platform.associations = w.platform.associations ∧
          ∃ t', Ends (o.check name host path) t (.ok false) t') := by
  have hsound := hreached.sound
  have hw : Settled o.poller w := ⟨hsound.paged, calm, hcancel, hcost, htime⟩
  obtain ⟨outcome, hsettled⟩ := resolveDomain_settled w.platform o.organizationId name
  have hlearned := hsettled w hsound.paged rfl rfl
  obtain rfl := hlearned.unique hdomain
  obtain ⟨enough, hrun⟩ := hdomain
  have hstored : domain ∈ w.platform.domains.items :=
    resolveDomain_stored (w := { w with patience := enough }) (hrun enough le_rfl)
  exact ⟨fun r hone => deletesExactly hw hlearned hone, fun hfree space r v hcreated =>
    restored hw hlearned hfree hsound hstored hmapped hcreated⟩

/-- A platform with one route, which an application is mapped to and whose deletion takes a while. -/
def mappedWorld : World (Store ℚ) ℚ where
  platform := Request.after (.associateRoute "app-4" "route-5")
    (({ pageSize := 2, substringFilters := false } : Store ℚ).filled
      [.organization "org", .space "org-1" "space", .sharedDomain "example.com",
        .application "space-2" "app", .route "shared-domain-3" "space-2" (some "api") none none,
        .deletion "route-5" [.queued, .running, .finished] none])
  clock := 0
  fetchCost := 1 / 2
  cancelAt := none
  sleeps := []
  events := []
  patience := 0

def mappedSpace : Orchestrator ℚ := ⟨"org-1", none, ⟨1, 5⟩⟩

theorem delete_exact_mapped :
    mappedWorld.platform.Reachable ∧ mappedWorld.platform.listFailures = [] ∧
      (∀ a ∈ mappedWorld.platform.associations, mappedWorld.platform.routes.contains a.2 = true) ∧
      mappedWorld.platform.routes.items.length = 1 ∧
      ∃ v, Ends (mappedSpace.delete "example.com" (some " api") none) mappedWorld (.ok ()) v ∧
        v.platform.routes.items = [] ∧ v.platform.associations = [] := by
  have hreached : mappedWorld.platform.Reachable :=
    Reachable.asked _ _ (Reachable.filled (.new 2 false _ rfl) _)
  have hmapped : ∀ a ∈ mappedWorld.platform.associations,
      mappedWorld.platform.routes.contains a.2 = true := by decide
  have hdomain : Ends (Run.resolveDomain mappedSpace.organizationId "example.com") mappedWorld
      (.ok ⟨"shared-domain-3", "example.com", .shared, none⟩)
      (mappedWorld.logged [.listResources .organizationPrivateDomains
        [(.organizationId, "org-1"), (.name, "example.com")] 1,
        .listResources .sharedDomains [(.name, "example.com")] 1]) := by
    refine ⟨1, fun n hn => ?_⟩
    obtain ⟨m, rfl⟩ := Nat.exists_eq_add_of_le' hn
    with_unfolding_all rfl
  have htime : 0 < mappedSpace.poller.interval + mappedWorld.fetchCost := by
    norm_num [mappedSpace, mappedWorld]
  have hone : mappedWorld.platform.routesAt (.of "shared-domain-3" (some " api") none) =
      [⟨"route-5", "shared-domain-3", "space-2", "api", "", none⟩] := by decide +kernel
  have hnone : mappedSpace.poller.waitFailure mappedWorld.fetchCost
      (mappedWorld.platform.deletionTrack "route-5") = none := by with_unfolding_all rfl
  obtain ⟨hexact, -⟩ := delete_exact hreached rfl hmapped rfl (by norm_num [mappedWorld]) htime
    hdomain (some " api") none
  have hdeletes := hexact _ hone
  obtain ⟨v, hv⟩ := hdeletes.returns_iff.mpr ((Poller.waitFailure_eq_none_iff htime).mp hnone)
  obtain ⟨hroutes, hassociations⟩ := hdeletes.taken v hv
  refine ⟨hreached, rfl, hmapped, rfl, v, hv, hroutes.trans ?_, hassociations.trans ?_⟩
  · decide +kernel
  · decide +kernel

end Orchestrator

end PlatformRoutes
