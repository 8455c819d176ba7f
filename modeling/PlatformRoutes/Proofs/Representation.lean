import PlatformRoutes.Proofs.Histories

namespace PlatformRoutes

/-- The listing that a listing is below of, if it needs one, by the filter that tells it. -/
def Resource.parentKey? : Resource → Option FilterKey
  | .organizations | .sharedDomains | .routes => none
  | .organizationSpaces | .organizationPrivateDomains => some .organizationId
  | .spaceRoutes | .spaceApplications => some .spaceId
  | .routeApplications => some .routeId

namespace Store

variable {τ : Type} {s s₀ : Store τ}

/-- The ids of all that is stored. -/
def ids (s : Store τ) : Multiset String :=
  s.organizations.keys + s.spaces.keys + s.domains.keys + s.applications.keys + s.routes.keys

/-- What can be stored besides routes. -/
def records (s : Store τ) : Register Ref × Register Owned × Register Domain × Register Owned :=
  (s.organizations, s.spaces, s.domains, s.applications)

theorem records_addRoute (domainId spaceId : String) (host path service : Option String)
    (s : Store τ) : ((addRoute domainId spaceId host path service).run s).2.records = s.records := by
  rw [run_addRoute]
  split <;> rfl

/-- No request changes the organizations, the spaces, the domains or the applications. -/
theorem records_after (q : Request) (s : Store τ) : (q.after s).records = s.records := by
  cases q with
  | listResources resource filters page =>
    rw [Request.after, Request.perform, run_discarded]
    rfl
  | createRoute domainId spaceId host path =>
    rw [Request.after, Request.perform, run_discarded]
    change ((createRoute domainId spaceId host path).run s).2.records = _
    rw [run_createRoute]
    dsimp only
    split
    · rfl
    · split
      · rfl
      · exact records_addRoute domainId spaceId host path none _
  | deleteRoute routeId =>
    rw [Request.after, Request.perform, run_discarded]
    change ((deleteRoute routeId).run s).2.records = _
    cases hstored : s.routes.contains routeId with
    | true =>
      rw [run_deleteRoute hstored]
      rfl
    | false =>
      rw [run_deleteRoute_unknown hstored]
      rfl
  | getJob jobId =>
    rw [Request.after, Request.perform, run_discarded]
    change ((getJob jobId).run s).2.records = _
    cases hfound : s.jobs.find? jobId with
    | none =>
      rw [run_getJob_unknown hfound]
      rfl
    | some t =>
      obtain ⟨_, _, _, hlook⟩ := look_frame { s with calls := s.calls ++ [.getJob jobId] } t
      rw [run_getJob hfound, hlook]
      rfl
  | associateRoute applicationId routeId =>
    change ((associateRoute applicationId routeId).run s).2.records = _
    rw [run_associateRoute]
    dsimp only
    split <;> rfl
  | removeRoute applicationId routeId => rfl

theorem keys_look_le (s : Store τ) (t : JobTrack) : (s.look t).routes.keys ≤ s.routes.keys := by
  unfold look
  split
  · cases t.route with
    | none => exact le_rfl
    | some routeId => exact s.routes.keys_erase_le routeId
  · exact le_rfl

/-- The ids of the routes after a move are old ones, but for that of the route that it adds. -/
theorem keys_moved_le (s : Store τ) (m : Move τ) : (s.moved m).routes.keys ≤
    s.routes.keys + (((s.addition? m).map Route.id).toList : Multiset String) := by
  cases s.effect m with
  | idle _ _ hroutes =>
    rw [hroutes]
    exact Multiset.le_add_right _ _
  | adds r hadded _ _ _ hroutes =>
    rw [hroutes, hadded]
    exact s.routes.keys_put_le r
  | scripts _ _ _ _ hroutes =>
    rw [hroutes]
    exact Multiset.le_add_right _ _
  | deletes routeId _ _ hmoved =>
    rw [hmoved]
    exact Multiset.le_add_right _ _
  | polls jobId t _ _ hmoved =>
    rw [hmoved]
    exact (keys_look_le _ t).trans (Multiset.le_add_right _ _)

/-- What one part of a sum gains, the sum gains. -/
theorem add_gain_left {a a' b k : Multiset String} (h : a' ≤ a + k) : a' + b ≤ a + b + k := by
  rw [add_right_comm]
  exact add_le_add_left h b

theorem add_gain_right {a b b' k : Multiset String} (h : b' ≤ b + k) : a + b' ≤ a + b + k := by
  rw [add_assoc]
  exact add_le_add_right h a

/-- Where only routes are new, only ids of routes are. -/
theorem ids_le_of_records {t : Store τ} {k : Multiset String} (hrecords : t.records = s.records)
    (hroutes : t.routes.keys ≤ s.routes.keys + k) : t.ids ≤ s.ids + k := by
  simp only [records, Prod.mk.injEq] at hrecords
  obtain ⟨horganizations, hspaces, hdomains, happlications⟩ := hrecords
  rw [ids, ids, horganizations, hspaces, hdomains, happlications]
  exact add_gain_right hroutes

/-- A move stores nothing under an id but what it gives it to. -/
theorem ids_moved_le (s : Store τ) (m : Move τ) :
    (s.moved m).ids ≤ s.ids + ((s.given? m).toList : Multiset String) := by
  have hadded : (((s.addition? m).map Route.id).toList : Multiset String) ≤
      ((((s.addition? m).map Route.id).or ((s.started? m).map Prod.fst)).toList :
        Multiset String) := by
    cases s.addition? m with
    | none => exact Multiset.zero_le _
    | some r => exact le_rfl
  have hroutes := (keys_moved_le s m).trans (add_le_add_right hadded _)
  cases m with
  | ask q => exact ids_le_of_records (records_after q s) hroutes
  | seed seed =>
    cases seed with
    | organization name =>
      exact add_gain_left (add_gain_left (add_gain_left (add_gain_left
        (s.organizations.keys_put_le _))))
    | space organizationId name =>
      exact add_gain_left (add_gain_left (add_gain_left (add_gain_right (s.spaces.keys_put_le _))))
    | privateDomain organizationId name =>
      exact add_gain_left (add_gain_left (add_gain_right (s.domains.keys_put_le _)))
    | sharedDomain name =>
      exact add_gain_left (add_gain_left (add_gain_right (s.domains.keys_put_le _)))
    | application spaceId name =>
      exact add_gain_left (add_gain_right (s.applications.keys_put_le _))
    | route domainId spaceId host path service =>
      exact ids_le_of_records (records_addRoute domainId spaceId host path service s) hroutes
    | job jobId statuses error | deletion jobId statuses error =>
      cases statuses <;> exact Multiset.le_add_right _ _
    | listFailure | refused => exact Multiset.le_add_right _ _

/-- Whatever is stored was given its id in the history, and only once. -/
theorem ids_history_le (hempty : s₀.ids = 0) (moves : List (Move τ)) :
    (s₀.history moves).ids ≤ (along given? s₀ moves : Multiset String) := by
  induction moves using List.reverseRecOn with
  | nil => exact hempty.le
  | append_singleton moves m ih =>
    have hstep := ids_moved_le (s₀.history moves) m
    rw [history_concat, along_concat, ← Multiset.coe_add]
    exact hstep.trans (add_le_add_left ih _)

/-- A platform goes on answering for a job. -/
theorem contains_jobs_moved {jobId : String} (h : s.jobs.contains jobId = true) (m : Move τ) :
    (s.moved m).jobs.contains jobId = true := by
  have hput (t : JobTrack) : (s.jobs.put t).contains jobId = true := by
    rw [Register.contains, Register.find?_put]
    split
    · rfl
    · exact h
  cases s.effect m with
  | idle _ _ _ hjobs => rwa [hjobs]
  | adds _ _ _ _ _ _ hjobs => rwa [hjobs]
  | scripts t _ _ _ _ hjobs =>
    rw [hjobs]
    exact hput t
  | deletes routeId _ _ hmoved =>
    rw [hmoved]
    exact hput _
  | polls jobId' t _ _ hmoved =>
    obtain ⟨t', -, -, hjobs⟩ := look_jobs { s with calls := s.calls ++ [.getJob jobId'] } t
    rw [hmoved, hjobs]
    exact hput t'

theorem contains_jobs_started {m : Move τ} {p : String × String} (h : s.started? m = some p) :
    (s.moved m).jobs.contains p.1 = true := by
  obtain ⟨-, hid, -, hmoved⟩ := started_eq h
  rw [hmoved, hid, Register.contains, find?_deleting]
  rfl

theorem contains_jobs_history {moves : List (Move τ)} {p : String × String}
    (h : p ∈ along started? s₀ moves) : (s₀.history moves).jobs.contains p.1 = true := by
  induction moves using List.reverseRecOn with
  | nil => cases h
  | append_singleton moves m ih =>
    rw [history_concat]
    rw [along_concat] at h
    rcases List.mem_append.mp h with hbefore | hnow
    · exact contains_jobs_moved (ih hbefore) m
    · exact contains_jobs_started (Option.mem_toList.mp hnow)

theorem getJob_answers {jobId : String} (h : s.jobs.contains jobId = true) :
    ∃ job, ((getJob jobId).run s).1 = .ok job := by
  obtain ⟨t, ht⟩ := Option.isSome_iff_exists.mp h
  exact ⟨t.current, by rw [run_getJob ht]⟩

/-- Of the listings only that of what is mapped to a route looks up anything that could be missing. -/
theorem select_ok {resource : Resource} (hresource : resource ≠ .routeApplications) {filters : Filters}
    (hparent : ∀ key, resource.parentKey? = some key → (filters.get? key).isSome) (s : Store τ) :
    ∃ items, s.select resource filters = .ok items := by
  have hgiven {key : FilterKey} (hkey : resource.parentKey? = some key) :
      ∃ id, (parent filters key : Except (Failure τ) String) = .ok id := by
    obtain ⟨id, hid⟩ := Option.isSome_iff_exists.mp (hparent key hkey)
    exact ⟨id, by rw [parent, hid]⟩
  cases resource with
  | organizations | sharedDomains | routes => exact ⟨_, rfl⟩
  | organizationSpaces | organizationPrivateDomains | spaceRoutes | spaceApplications =>
    obtain ⟨id, hid⟩ := hgiven rfl
    exact ⟨_, by rw [select, hid]; rfl⟩
  | routeApplications => exact absurd rfl hresource

/-- A route whose host and path are spelled as routes are compared. -/
structure Spelled (r : Route) : Prop where
  host : Text.Trimmed Text.isBlank r.host.toList
  path : Text.Trimmed Text.isBlank r.path.toList
  slashed : IsPath r.path

theorem spelled_history (hempty : s₀.routes.items = []) (moves : List (Move τ)) :
    ∀ r ∈ (s₀.history moves).routes.items, Spelled r := by
  induction moves using List.reverseRecOn with
  | nil =>
    intro r hr
    rw [history, List.foldl_nil, hempty] at hr
    cases hr
  | append_singleton moves m ih =>
    intro r hr
    rw [history_concat] at hr
    rcases mem_routes_moved hr with hold | hadded
    · exact ih r hold
    · obtain ⟨-, ⟨host, path, hhost, hpath⟩, -⟩ := addition_eq hadded
      exact ⟨hhost ▸ normalSegment_trimmed host, hpath ▸ normalPath_trimmed path,
        hpath ▸ normalPath_isPath path⟩

/-- A part of a platform to which moves only add, and what they add under ids that are new. -/
def Grows (part : Store τ → Register Owned) (stem : String) : Prop :=
  ∀ s m, part (s.moved m) = part s ∨
    ∃ o : Owned, o.ref.id = idText stem s.nextId ∧ part (s.moved m) = (part s).put o

theorem spaces_grow : Grows (spaces (τ := τ)) "space" := by
  intro s m
  cases m with
  | ask q => exact .inl (congrArg (·.2.1) (records_after q s))
  | seed seed =>
    cases seed with
    | space organizationId name =>
      exact .inr ⟨⟨.of (idText "space" s.nextId) name, organizationId⟩, id_space name s.nextId, rfl⟩
    | route domainId spaceId host path service =>
      exact .inl (congrArg (·.2.1) (records_addRoute domainId spaceId host path service s))
    | job jobId statuses error | deletion jobId statuses error => cases statuses <;> exact .inl rfl
    | organization | privateDomain | sharedDomain | application | listFailure | refused =>
      exact .inl rfl

theorem applications_grow : Grows (applications (τ := τ)) "app" := by
  intro s m
  cases m with
  | ask q => exact .inl (congrArg (·.2.2.2) (records_after q s))
  | seed seed =>
    cases seed with
    | application spaceId name =>
      exact .inr ⟨⟨.of (idText "app" s.nextId) name, spaceId⟩, id_application name s.nextId, rfl⟩
    | route domainId spaceId host path service =>
      exact .inl (congrArg (·.2.2.2) (records_addRoute domainId spaceId host path service s))
    | job jobId statuses error | deletion jobId statuses error => cases statuses <;> exact .inl rfl
    | organization | space | privateDomain | sharedDomain | listFailure | refused => exact .inl rfl

namespace Grows

variable {part : Store τ → Register Owned} {stem : String} {o : Owned}

/-- What is stored in such a part stays there as it is. -/
theorem find?_history (h : Grows part stem) {number : ℕ} (hpast : number < s.nextId)
    (hfound : (part s).find? (idText stem number) = some o) (moves : List (Move τ)) :
    (part (s.history moves)).find? (idText stem number) = some o := by
  induction moves generalizing s with
  | nil => exact hfound
  | cons m moves ih =>
    refine ih (hpast.trans_le (s.nextId_moved_le m)) ?_
    rcases h s m with hsame | ⟨new, hid, hput⟩
    · rwa [hsame]
    · have hother : Keyed.key new ≠ idText stem number := by
        intro hsame
        have := number_of_idText (hid.symm.trans hsame)
        omega
      rwa [hput, Register.find?_put, if_neg hother]

/-- The owner that a thing is added with is its owner ever after. -/
theorem owner_history (h : Grows part stem) {m : Move τ} (hid : o.ref.id = idText stem s.nextId)
    (hput : part (s.moved m) = (part s).put o) (hnext : (s.moved m).nextId = s.nextId + 1)
    (later : List (Move τ)) :
    ((part (s.history (m :: later))).find? (idText stem s.nextId)).map Owned.owner = some o.owner := by
  have hfound : (part (s.moved m)).find? (idText stem s.nextId) = some o := by
    rw [hput, Register.find?_put]
    exact if_pos hid
  exact congrArg (Option.map Owned.owner)
    (h.find?_history (s := s.moved m) (by omega) hfound later)

end Grows

/-- Every space and every application has the owner that it was added with. -/
structure OwnersKept (s₀ : Store τ) (moves : List (Move τ)) : Prop where
  spaces : ∀ before organizationId name later,
    moves = before ++ .seed (.space organizationId name) :: later →
    ∃ id, (s₀.history before).given? (.seed (.space organizationId name)) = some id ∧
      (s₀.history moves).organizationOf id = some organizationId
  applications : ∀ before spaceId name later,
    moves = before ++ .seed (.application spaceId name) :: later →
    ∃ id, (s₀.history before).given? (.seed (.application spaceId name)) = some id ∧
      ((s₀.history moves).applications.find? id).map Owned.owner = some spaceId

theorem ownersKept (s₀ : Store τ) (moves : List (Move τ)) : OwnersKept s₀ moves where
  spaces before organizationId name later hmoves := by
    refine ⟨_, given_space _ organizationId name, ?_⟩
    rw [hmoves, history_append]
    exact spaces_grow.owner_history
      (o := ⟨.of (idText "space" (s₀.history before).nextId) name, organizationId⟩)
      (id_space name _) rfl rfl later
  applications before spaceId name later hmoves := by
    refine ⟨_, given_application _ spaceId name, ?_⟩
    rw [hmoves, history_append]
    exact applications_grow.owner_history
      (o := ⟨.of (idText "app" (s₀.history before).nextId) name, spaceId⟩)
      (id_application name _) rfl rfl later

/-- How a platform in memory holds what it is given. -/
structure Represented (s : Store τ) : Prop where
  /-- Everything is stored under its own id. -/
  organizations : ∀ id r, s.organizations.find? id = some r ↔ r ∈ s.organizations.items ∧ r.id = id
  spaces : ∀ id o, s.spaces.find? id = some o ↔ o ∈ s.spaces.items ∧ o.ref.id = id
  domains : ∀ id d, s.domains.find? id = some d ↔ d ∈ s.domains.items ∧ d.id = id
  applications : ∀ id o,
    s.applications.find? id = some o ↔ o ∈ s.applications.items ∧ o.ref.id = id
  routes : ∀ id r, s.routes.find? id = some r ↔ r ∈ s.routes.items ∧ r.id = id
  /-- No two things share an id, of whatever kind they are. -/
  apart : s.ids.Nodup
  owned : ∀ o ∈ s.spaces.items, s.organizationOf o.ref.id = some o.owner
  housed : ∀ o ∈ s.applications.items,
    (s.applications.find? o.ref.id).map Owned.owner = some o.owner
  /-- Nothing that a listing looks up is missing. -/
  listed : ∀ (resource : Resource) (filters : Filters) (page : ℤ), resource ≠ .routeApplications →
    (∀ key, resource.parentKey? = some key → (filters.get? key).isSome) →
    s.failureOf? resource filters = none → 1 ≤ page →
    ∃ p, ((listResources resource filters page).run s).1 = .ok p
  polled : ∀ t ∈ s.jobs.items, ∃ job, ((getJob t.id).run s).1 = .ok job
  mappedOnce : s.associations.Nodup
  spelled : ∀ r ∈ s.routes.items, Spelled r

theorem listResources_answers {resource : Resource} (hresource : resource ≠ .routeApplications)
    {filters : Filters} (hparent : ∀ key, resource.parentKey? = some key → (filters.get? key).isSome)
    (hcalm : s.failureOf? resource filters = none) {page : ℤ} (hpage : 1 ≤ page) :
    ∃ p, ((listResources resource filters page).run s).1 = .ok p := by
  obtain ⟨n, rfl⟩ := Int.eq_ofNat_of_zero_le (by omega : 0 ≤ page)
  have hlog : ((listResources resource filters n).run s).1 = s.listPage resource filters n := by
    cases resource <;> rfl
  obtain ⟨items, hitems⟩ := select_ok hresource hparent s
  have hlisting : s.listing resource filters = .ok items := by
    rw [listing, hcalm]
    exact hitems
  rw [hlog, listPage_ok hlisting (by omega)]
  exact ⟨_, rfl⟩

theorem find?_owned {owned : Register Owned} {o : Owned} (h : o ∈ owned.items) :
    (owned.find? o.ref.id).map Owned.owner = some o.owner :=
  congrArg (Option.map Owned.owner) (Register.find?_eq_some_iff.mpr ⟨h, rfl⟩)

theorem Reachable.represented (h : s.Reachable) (hids : s.ids.Nodup)
    (hspelled : ∀ r ∈ s.routes.items, Spelled r) : s.Represented where
  organizations _ _ := Register.find?_eq_some_iff
  spaces _ _ := Register.find?_eq_some_iff
  domains _ _ := Register.find?_eq_some_iff
  applications _ _ := Register.find?_eq_some_iff
  routes _ _ := Register.find?_eq_some_iff
  apart := hids
  owned _ ho := find?_owned ho
  housed _ ho := find?_owned ho
  listed _ _ _ hresource hparent hcalm hpage :=
    listResources_answers hresource hparent hcalm hpage
  polled t ht := getJob_answers (Register.contains_iff.mpr ⟨t, ht, rfl⟩)
  mappedOnce := h.sound.mappedOnce
  spelled := hspelled

/-- Along every history an id is given out at most once, whatever becomes of the thing that got it;
nothing is stored under any other id; spaces and applications keep their owners; every job that was
started answers; and the platform is as it should be. -/
theorem history_represented {pageSize : ℤ} {loose : Bool}
    (hnew : (new? pageSize loose : Except (Failure τ) (Store τ)) = .ok s₀) (moves : List (Move τ)) :
    (along given? s₀ moves).Nodup ∧
      (s₀.history moves).ids ≤ (along given? s₀ moves : Multiset String) ∧
      OwnersKept s₀ moves ∧
      (∀ p ∈ along started? s₀ moves,
        ∃ job, ((getJob p.1).run (s₀.history moves)).1 = .ok job) ∧
      (s₀.history moves).Represented := by
  have hempty : s₀.ids = 0 ∧ s₀.routes.items = [] := by
    unfold new? at hnew
    split at hnew
    · cases hnew
    · cases hnew
      exact ⟨rfl, rfl⟩
  have hreached : (s₀.history moves).Reachable :=
    reachable_iff.mpr ⟨pageSize, loose, s₀, moves, hnew, rfl⟩
  have hnodup := (given_nodup s₀ moves).1
  have hids := ids_history_le hempty.1 moves
  exact ⟨hnodup, hids, ownersKept s₀ moves, fun p hp => getJob_answers (contains_jobs_history hp),
    hreached.represented (Multiset.nodup_of_le hids (Multiset.coe_nodup.mpr hnodup))
      (spelled_history hempty.2 moves)⟩

/-- A route is deleted twice over and made again in between. -/
def recreation : List (Move ℚ) :=
  [.seed (.organization "org"), .seed (.space "org-1" "space"), .seed (.sharedDomain "example.com"),
    .ask (.createRoute "shared-domain-3" "space-2" (some " api ") (some "v1")),
    .ask (.deleteRoute "route-4"), .ask (.deleteRoute "route-4"), .seed (.job "job-6" [.failed] none),
    .ask (.getJob "job-5"), .ask (.createRoute "shared-domain-3" "space-2" (some "api") (some "/v1")),
    .ask (.getJob "job-6")]

theorem history_represented_recreation :
    ∃ s₀ : Store ℚ, new? 2 false = .ok s₀ ∧
      along given? s₀ recreation = ["org-1", "space-2", "shared-domain-3", "route-4", "job-5", "job-6",
        "route-7"] ∧
      (s₀.history recreation).ids = {"org-1", "space-2", "shared-domain-3", "route-7"} ∧
      (s₀.history recreation).Represented := by
  have hnew : (new? 2 false : Except (Failure ℚ) (Store ℚ)) =
      .ok { pageSize := 2, substringFilters := false } := rfl
  obtain ⟨-, -, -, -, hrepresented⟩ := history_represented hnew recreation
  exact ⟨_, hnew, by decide +kernel, by decide +kernel, hrepresented⟩

end Store

end PlatformRoutes
