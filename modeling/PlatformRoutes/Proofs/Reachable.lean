import PlatformRoutes.Proofs.UniqueKeys

namespace PlatformRoutes

/-- A thing that a platform in memory is filled with before it is used. -/
inductive Seed (τ : Type) where
  | organization (name : String)
  | space (organizationId name : String)
  | privateDomain (organizationId name : String)
  | sharedDomain (name : String)
  | application (spaceId name : String)
  | route (domainId spaceId : String) (host path service : Option String)
  | job (jobId : String) (statuses : List JobStatus) (error : Option ErrorDetails)
  | deletion (routeId : String) (statuses : List JobStatus) (error : Option ErrorDetails)
  | listFailure (resource : Resource) (failure : Failure τ) (filters : Filters)
  /-- A thing that is refused still spends its id. -/
  | refused (stem : String)

namespace Store

variable {τ : Type} {s t : Store τ}

/-- What filling in a thing leaves of a platform. -/
def seeded (s : Store τ) : Seed τ → Store τ
  | .organization name => ((addOrganization name).run s).2
  | .space organizationId name => ((addSpace organizationId name).run s).2
  | .privateDomain organizationId name => ((addPrivateDomain organizationId name).run s).2
  | .sharedDomain name => ((addSharedDomain name).run s).2
  | .application spaceId name => ((addApplication spaceId name).run s).2
  | .route domainId spaceId host path service =>
    ((addRoute domainId spaceId host path service).run s).2
  | .job jobId statuses error => ((scriptJob jobId statuses error).run s).2
  | .deletion routeId statuses error => ((scriptDelete routeId statuses error).run s).2
  | .listFailure resource failure filters => ((failList resource failure filters).run s).2
  | .refused stem => ((mint stem).run s).2

def filled (s : Store τ) (seeds : List (Seed τ)) : Store τ := seeds.foldl Store.seeded s

/-- The states that a platform in memory can be in: it is made empty, and filled and asked in any
order. -/
inductive Reachable : Store τ → Prop where
  | new (pageSize : Int) (loose : Bool) (s : Store τ) (h : new? pageSize loose = .ok s) :
    Reachable s
  | seeded (s : Store τ) (seed : Seed τ) (h : Reachable s) : Reachable (s.seeded seed)
  | asked (s : Store τ) (q : Request) (h : Reachable s) : Reachable (q.after s)

theorem new?_eq_ok {pageSize : ℤ} {loose : Bool}
    (h : (new? pageSize loose : Except (Failure τ) (Store τ)) = .ok s) :
    1 ≤ pageSize ∧ s = { pageSize := pageSize.toNat, substringFilters := loose } := by
  unfold new? at h
  split at h
  · cases h
  · rename_i hpositive
    cases h
    exact ⟨by omega, rfl⟩

theorem Reachable.filled (h : s.Reachable) (seeds : List (Seed τ)) :
    (s.filled seeds).Reachable := by
  induction seeds generalizing s with
  | nil => exact h
  | cons seed rest ih => exact ih (.seeded s seed h)

theorem Reachable.replay (h : s.Reachable) (requests : List Request) :
    (replay s requests).Reachable := by
  induction requests generalizing s with
  | nil => exact h
  | cons q rest ih => exact ih (.asked s q h)

/-- Whatever orchestrators do on a platform, they leave it in a state that can be reached. -/
theorem Reachable.afterAll [Add τ] [Sub τ] [OfNat τ 0] [LE τ] [LT τ] [DecidableLE τ] [DecidableLT τ]
    (h : s.Reachable) (turns : List (Turn τ)) : (Turn.afterAll s turns).Reachable := by
  obtain ⟨requests, hafter⟩ := Turn.afterAll_eq_replay turns s
  rw [hafter]
  exact h.replay requests

/-- The id of a route that is given out while some number is the next one. -/
def routeName (number : ℕ) : String := "route" ++ "-" ++ toString number

theorem routeName_injective : Function.Injective routeName := by
  intro m n h
  have hdigits : toString m = toString n := by simpa [routeName] using h
  exact Nat.repr_inj.mp hdigits

/-- What every state that can be reached has. -/
structure Sound (s : Store τ) : Prop where
  paged : 0 < s.pageSize
  named : ∀ d ∈ s.domains.items, d.id ≠ ""
  numbered : ∀ r ∈ s.routes.items, ∃ number < s.nextId, r.id = routeName number
  mappedOnce : s.associations.Nodup

namespace Sound

/-- Numbers are given out in order, so a state to which no domain, route or association is added
stays sound. -/
theorem of_subset (h : s.Sound) (hpaged : t.pageSize = s.pageSize)
    (hdomains : t.domains.items ⊆ s.domains.items) (hroutes : t.routes.items ⊆ s.routes.items)
    (hassociations : t.associations.Sublist s.associations) (hnext : s.nextId ≤ t.nextId) :
    t.Sound where
  paged := hpaged ▸ h.paged
  named d hd := h.named d (hdomains hd)
  numbered r hr := by
    obtain ⟨number, hlt, hid⟩ := h.numbered r (hroutes hr)
    exact ⟨number, by omega, hid⟩
  mappedOnce := hassociations.nodup h.mappedOnce

/-- What is sound about a state does not depend on anything else. -/
theorem of_same (h : s.Sound) (hpaged : t.pageSize = s.pageSize) (hdomains : t.domains = s.domains)
    (hroutes : t.routes = s.routes) (hassociations : t.associations = s.associations)
    (hnext : s.nextId ≤ t.nextId) : t.Sound :=
  h.of_subset hpaged (hdomains ▸ List.Subset.refl _) (hroutes ▸ List.Subset.refl _)
    (hassociations ▸ List.Sublist.refl _) hnext

theorem addDomain (h : s.Sound) (d : Domain) (hd : d.id ≠ "") :
    ({ s with nextId := s.nextId + 1, domains := s.domains.put d } : Store τ).Sound where
  paged := h.paged
  named e he := by
    rcases Register.mem_put he with rfl | he
    · exact hd
    · exact h.named e he
  numbered r hr := by
    obtain ⟨number, hlt, hid⟩ := h.numbered r hr
    exact ⟨number, Nat.lt_succ_of_lt hlt, hid⟩
  mappedOnce := h.mappedOnce

theorem addRoute (h : s.Sound) (domainId spaceId : String) (host path service : Option String) :
    ((addRoute domainId spaceId host path service).run s).2.Sound := by
  rw [run_addRoute]
  split
  · exact h.of_same rfl rfl rfl rfl (Nat.le_succ _)
  · refine ⟨h.paged, h.named, fun r hr => ?_, h.mappedOnce⟩
    rcases Register.mem_put hr with rfl | hr
    · exact ⟨s.nextId, Nat.lt_succ_self _, rfl⟩
    · obtain ⟨number, hlt, hid⟩ := h.numbered r hr
      exact ⟨number, Nat.lt_succ_of_lt hlt, hid⟩

theorem seeded (h : s.Sound) (seed : Seed τ) : (s.seeded seed).Sound := by
  cases seed with
  | organization | space | application | refused =>
    exact h.of_same rfl rfl rfl rfl (Nat.le_succ _)
  | listFailure => exact h.of_same rfl rfl rfl rfl (Nat.le_refl _)
  | privateDomain organizationId name =>
    exact h.addDomain ⟨"private-domain" ++ "-" ++ toString s.nextId, _, _, _⟩ (by simp)
  | sharedDomain name =>
    exact h.addDomain ⟨"shared-domain" ++ "-" ++ toString s.nextId, _, _, _⟩ (by simp)
  | route domainId spaceId host path service => exact h.addRoute domainId spaceId host path service
  | job jobId statuses error | deletion jobId statuses error =>
    cases statuses <;> exact h.of_same rfl rfl rfl rfl (Nat.le_refl _)

theorem asked (h : s.Sound) (q : Request) : ({ s with calls := s.calls ++ [q] } : Store τ).Sound :=
  h.of_same rfl rfl rfl rfl (Nat.le_refl _)

/-- A look at a job takes at most a route away, with all that is mapped to it. -/
theorem look (h : s.Sound) (track : JobTrack) : (s.look track).Sound := by
  have hroutes := routes_look_subset s track
  unfold Store.look at hroutes ⊢
  split
  · rename_i hfinished
    rw [if_pos hfinished] at hroutes
    cases hr : track.route with
    | none => exact h.of_same rfl rfl rfl rfl (Nat.le_refl _)
    | some routeId =>
      rw [hr] at hroutes
      exact h.of_subset rfl (List.Subset.refl _) hroutes List.filter_sublist (Nat.le_refl _)
  · exact h.of_same rfl rfl rfl rfl (Nat.le_refl _)

theorem createRoute (h : s.Sound) (domainId spaceId : String) (host path : Option String) :
    ((createRoute domainId spaceId host path).run s).2.Sound := by
  have hasked := h.asked (.createRoute domainId spaceId host path)
  rw [run_createRoute]
  dsimp only
  split
  · exact hasked
  · split
    · exact hasked
    · exact hasked.addRoute domainId spaceId host path none

theorem deleteRoute (h : s.Sound) (routeId : String) :
    ((deleteRoute routeId).run s).2.Sound := by
  cases hr : s.routes.contains routeId with
  | true =>
    rw [run_deleteRoute hr]
    exact h.of_same rfl rfl rfl rfl (Nat.le_succ _)
  | false =>
    rw [run_deleteRoute_unknown hr]
    exact h.asked (.deleteRoute routeId)

theorem getJob (h : s.Sound) (jobId : String) : ((getJob jobId).run s).2.Sound := by
  cases hj : s.jobs.find? jobId with
  | none =>
    rw [run_getJob_unknown hj]
    exact h.asked (.getJob jobId)
  | some track =>
    rw [run_getJob hj]
    exact (h.asked (.getJob jobId)).look track

/-- An association is only made if it is not there. -/
theorem associateRoute (h : s.Sound) (applicationId routeId : String) :
    ((associateRoute applicationId routeId).run s).2.Sound := by
  have hasked := h.asked (.associateRoute applicationId routeId)
  rw [run_associateRoute]
  dsimp only
  split
  · exact hasked
  · rename_i hnew
    refine ⟨h.paged, h.named, h.numbered, ?_⟩
    have hconcat := h.mappedOnce.concat (by simpa using hnew)
    rwa [List.concat_eq_append] at hconcat

theorem after (h : s.Sound) (q : Request) : (q.after s).Sound := by
  cases q with
  | listResources resource filters page =>
    rw [Request.after, Request.perform, run_discarded]
    exact h.asked (.listResources resource filters page)
  | createRoute domainId spaceId host path =>
    rw [Request.after, Request.perform, run_discarded]
    exact h.createRoute domainId spaceId host path
  | deleteRoute routeId =>
    rw [Request.after, Request.perform, run_discarded]
    exact h.deleteRoute routeId
  | getJob jobId =>
    rw [Request.after, Request.perform, run_discarded]
    exact h.getJob jobId
  | associateRoute applicationId routeId => exact h.associateRoute applicationId routeId
  | removeRoute applicationId routeId =>
    exact h.of_subset rfl (List.Subset.refl _) (List.Subset.refl _) List.erase_sublist
      (Nat.le_refl _)

end Sound

theorem Reachable.sound (h : s.Reachable) : s.Sound := by
  induction h with
  | new pageSize loose s h =>
    obtain ⟨hpositive, rfl⟩ := new?_eq_ok h
    refine ⟨?_, fun _ hd => absurd hd List.not_mem_nil, fun _ hr => absurd hr List.not_mem_nil,
      List.nodup_nil⟩
    change 0 < pageSize.toNat
    omega
  | seeded s seed _ ih => exact ih.seeded seed
  | asked s q _ ih => exact ih.after q

end Store

end PlatformRoutes
