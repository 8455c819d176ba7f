import PlatformRoutes.Proofs.Lookup
import PlatformRoutes.Proofs.Segment

namespace PlatformRoutes

/-- The verdict on a name, by the records that have it: the only one, or a failure that says that
there are none or how many. -/
structure Decides {τ α : Type} (kind : ResourceKind) (name : String) (namesakes : List α)
    (outcome : Except (Failure τ) α) : Prop where
  none : namesakes = [] → outcome = .error (.notFound kind name)
  only : ∀ x, namesakes = [x] → outcome = .ok x
  several : 2 ≤ namesakes.length → outcome = .error (.ambiguous kind name namesakes.length)

namespace Store

variable {τ : Type} {s : Store τ} {w : World (Store τ) τ} {resource : Resource} {filters : Filters}

/-- How many things a platform holds of the kind that a listing shows. -/
def held (s : Store τ) : Resource → ℕ
  | .organizations => s.organizations.items.length
  | .organizationSpaces => s.spaces.items.length
  | .organizationPrivateDomains | .sharedDomains => s.domains.items.length
  | .routes | .spaceRoutes => s.routes.items.length
  | .spaceApplications => s.applications.items.length
  | .routeApplications => s.associations.length

/-- How many things a platform holds that a listing may show. -/
def extent (s : Store τ) : ℕ :=
  s.organizations.items.length + s.spaces.items.length + s.domains.items.length +
    s.applications.items.length + s.routes.items.length + s.associations.length

theorem held_le_extent (s : Store τ) (resource : Resource) : s.held resource ≤ s.extent := by
  cases resource <;> simp only [held, extent] <;> omega

end Store

/-- A platform with pages, and patience for all that it holds. -/
structure World.Patient {τ : Type} (w : World (Store τ) τ) : Prop where
  paged : 0 < w.platform.pageSize
  extent : w.platform.extent < w.patience

theorem World.Patient.one_le {τ : Type} {w : World (Store τ) τ} (h : w.Patient) : 1 ≤ w.patience :=
  Nat.one_le_of_lt h.extent

namespace Store

variable {τ : Type} {s : Store τ} {w : World (Store τ) τ} {resource : Resource} {filters : Filters}

theorem length_ownedBy_le (register : Register Owned) (filters : Filters) (owner : String) :
    (ownedBy register filters owner).length ≤ register.items.length := by
  rw [ownedBy, List.length_map]
  exact List.length_filter_le _ _

/-- A listing that needs its parent comes to something only with one. -/
theorem of_parent {α : Type} {key : FilterKey} {f : String → Except (Failure τ) α} {a : α}
    (h : (do f (← parent filters key)) = .ok a) : ∃ owner, f owner = .ok a := by
  cases hp : (parent filters key : Except (Failure τ) String) with
  | error e =>
    rw [hp] at h
    cases h
  | ok owner =>
    rw [hp] at h
    exact ⟨owner, h⟩

theorem length_select_le {items : List resource.Item} (h : s.select resource filters = .ok items) :
    items.length ≤ s.held resource := by
  cases resource with
  | organizations | sharedDomains | routes =>
    cases h
    exact List.length_filter_le _ _
  | organizationSpaces | spaceApplications =>
    obtain ⟨owner, h⟩ := of_parent h
    cases h
    exact length_ownedBy_le _ _ _
  | organizationPrivateDomains | spaceRoutes =>
    obtain ⟨owner, h⟩ := of_parent h
    cases h
    exact List.length_filter_le _ _
  | routeApplications =>
    obtain ⟨routeId, h⟩ := of_parent h
    have hlength := length_of_mapM_ok h
    rw [hlength]
    exact List.length_filter_le _ _

/-- As many pages are asked for as a platform holds things, and one more if it holds none. -/
theorem pages_le_extent (hpos : 0 < s.pageSize) {items : List resource.Item}
    (h : s.select resource filters = .ok items) :
    max 1 (pageCount s.pageSize items.length) ≤ s.extent + 1 := by
  have hlength := (length_select_le h).trans (s.held_le_extent resource)
  have hmul := Nat.le_mul_of_pos_left items.length hpos
  have hpages : pageCount s.pageSize items.length ≤ items.length + 1 := by
    refine Nat.div_le_of_le_mul ?_
    rw [Nat.mul_add]
    omega
  omega

theorem pagesRead_le (hpos : 0 < s.pageSize) (resource : Resource) (filters : Filters) :
    s.pagesRead resource filters ≤ s.extent + 1 := by
  unfold pagesRead listing
  cases s.failureOf? resource filters with
  | some failure => exact Nat.le_add_left 1 _
  | none =>
    dsimp only
    cases h : s.select resource filters with
    | error failure => exact Nat.le_add_left 1 _
    | ok items => exact pages_le_extent hpos h

/-- The routes that are stored under a key. -/
def routesAt (s : Store τ) (key : RouteKey) : List Route :=
  s.routes.items.filter fun r => r.key == key

theorem isWithin_self : ∀ part : List Char, isWithin part part = true
  | [] => rfl
  | c :: part => by
    rw [isWithin, Bool.or_eq_true]
    exact .inl (List.isPrefixOf_iff_prefix.mpr (List.prefix_refl _))

/-- A segment passes the filter for its own normal form, be it loose or exact. -/
theorem segmentFits_self (s : Store τ) {segment : String}
    (h : normalSegment (some segment) = segment) : s.segmentFits segment segment = true := by
  unfold segmentFits
  dsimp only
  rw [h]
  split
  · exact isWithin_self _
  · exact beq_self_eq_true _

variable {domain : Domain} {host path : Option String} {r : Route}

/-- What each filter of a lookup for a route is set to. -/
theorem get?_routeFilters (domain : Domain) (host path : Option String) (key : FilterKey) :
    (Run.routeFilters domain host path).get? key =
      match key with
      | .domainId => some domain.id
      | .host => (some (normalSegment host)).filter fun s => !s.isEmpty
      | .path => (some (normalPath path)).filter fun s => !s.isEmpty
      | _ => none := by
  unfold Run.routeFilters Filters.get?
  cases hh : (normalSegment host).isEmpty <;> cases hp : (normalPath path).isEmpty <;>
    cases key <;> simp [hh, hp, Option.filter]

/-- A filter that is set to the right text or not at all. -/
theorem passes_filter {key : FilterKey} {segment : String} {test : String → Bool}
    (h : filters.get? key = (some segment).filter fun s => !s.isEmpty) (ht : test segment = true) :
    passes filters key test = true := by
  unfold passes
  rw [h, Option.filter_some]
  by_cases he : segment.isEmpty
  · simp [he]
  · simpa [he] using ht

/-- Of the routes with its host and path, the filters for a route let through those of its domain. -/
theorem routeFits_of_fits (s : Store τ) (domain : Domain) (h : r.fits host path = true) :
    s.routeFits (Run.routeFilters domain host path) r = (r.domainId == domain.id) := by
  have hget := get?_routeFilters domain host path
  obtain ⟨hhost, hpath⟩ : r.host = normalSegment host ∧ r.path = normalPath path := by
    simpa [Route.fits] using h
  have hdomain : passes (Run.routeFilters domain host path) .domainId (r.domainId == ·) =
      (r.domainId == domain.id) := by rw [passes, hget]
  have hhosts : passes (Run.routeFilters domain host path) .host (s.segmentFits r.host) = true := by
    rw [hhost]
    exact passes_filter (hget .host) (s.segmentFits_self (normalSegment_idem host))
  have hpaths : passes (Run.routeFilters domain host path) .path (s.segmentFits r.path) = true := by
    rw [hpath]
    exact passes_filter (hget .path)
      (s.segmentFits_self (normalSegment_of_trimmed (normalPath_trimmed path)))
  have hspace (test : String → Bool) :
      passes (Run.routeFilters domain host path) .spaceId test = true := by rw [passes, hget]
  have horganization (test : String → Bool) :
      passes (Run.routeFilters domain host path) .organizationId test = true := by
    rw [passes, hget]
  rw [routeFits, hdomain, hhosts, hpaths, hspace, horganization]
  simp only [Bool.and_true]

/-- What a lookup of a route is after, of the routes that are listed for it, is all that is stored
under its key. -/
theorem filter_routeFits (s : Store τ) (domain : Domain) (host path : Option String) :
    (s.routes.items.filter (s.routeFits (Run.routeFilters domain host path))).filter
        (fun r => r.fits host path) =
      s.routesAt (.of domain.id host path) := by
  rw [List.filter_filter]
  refine List.filter_congr fun r _ => ?_
  have hkey : (r.key == RouteKey.of domain.id host path) =
      (r.fits host path && r.domainId == domain.id) := by
    rw [Bool.eq_iff_iff]
    simp only [Route.fits, Route.key, RouteKey.of, beq_iff_eq, Bool.and_eq_true, RouteKey.mk.injEq]
    tauto
  rw [hkey]
  cases h : r.fits host path with
  | true => rw [routeFits_of_fits s domain h]
  | false => rfl

/-- Of the listing for a route, what is left once hosts and paths have been compared again does not
depend on how loosely the platform filters. -/
theorem listing_routeFilters (s : Store τ) (domain : Domain) (host path : Option String) :
    (s.listing .routes (Run.routeFilters domain host path)).map
        (List.filter fun r => Route.fits r host path) =
      match s.failureOf? .routes (Run.routeFilters domain host path) with
      | some f => .error f
      | none => .ok (s.routesAt (.of domain.id host path)) := by
  unfold listing
  cases s.failureOf? .routes (Run.routeFilters domain host path) with
  | some f => rfl
  | none => exact congrArg Except.ok (filter_routeFits s domain host path)

/-- Picking the only one of some records is such a verdict on their name, in every world. -/
theorem decides_single {α : Type} (kind : ResourceKind) (name : String) (namesakes : List α) :
    ∃ outcome, Decides kind name namesakes outcome ∧
      ∀ w : World (Store τ) τ, Ends (Run.single kind name namesakes) w outcome w := by
  cases namesakes with
  | nil =>
    refine ⟨_, ⟨fun _ => rfl, fun x hx => ?_, fun hmany => ?_⟩, Ends.throw _⟩
    · cases hx
    · cases hmany
  | cons a rest =>
    cases rest with
    | nil =>
      refine ⟨_, ⟨fun hnone => ?_, fun x hx => ?_, fun hmany => ?_⟩, Ends.pure a⟩
      · cases hnone
      · exact congrArg Except.ok (List.cons.inj hx).1
      · exact absurd hmany (Nat.lt_irrefl 1)
    | cons b rest =>
      refine ⟨_, ⟨fun hnone => ?_, fun x hx => ?_, fun _ => rfl⟩, Ends.throw _⟩
      · cases hnone
      · cases hx

/-- The requests of a lookup. -/
def asked (s : Store τ) (q : Query) : List Request :=
  pageRequests q.resource q.filters 1 (s.pagesRead q.resource q.filters)

theorem found_ends (hpaged : 0 < w.platform.pageSize) (q : Query) :
    Ends (Run.found q) w ((w.platform.listing q.resource q.filters).map (List.filter q.means))
      (w.logged (w.platform.asked q)) := by
  have hlisted := listAll_ends hpaged q.resource q.filters
  cases hlisting : w.platform.listing q.resource q.filters with
  | ok items =>
    rw [hlisting] at hlisted
    exact hlisted.bind (Ends.pure _ _)
  | error e =>
    rw [hlisting] at hlisted
    exact hlisted.bind_error

theorem outcome_listAll (h : w.Patient) (resource : Resource) (filters : Filters) :
    ((Run.listAll resource filters).run w).1 = w.platform.listing resource filters :=
  congrArg Prod.fst (run_listAll h.paged ((pagesRead_le h.paged _ _).trans h.extent))

/-- A lookup comes to all that it is after of what the platform holds. -/
theorem outcome_found (h : w.Patient) (q : Query) : ((Run.found q).run w).1 =
    (w.platform.listing q.resource q.filters).map (List.filter q.means) := by
  have hlooks := looks_composed.listAll (looks_page (τ := τ)) q.resource q.filters
  rw [Run.found, hlooks.outcome_bind fun _ => looks_composed.pure _, outcome_listAll h]
  cases w.platform.listing q.resource q.filters <;> rfl

end Store

end PlatformRoutes
