import PlatformRoutes.Proofs.Matching
import PlatformRoutes.Proofs.Representation

namespace PlatformRoutes

/-- A path is spelled with its slash, or there is nothing that would need one. -/
def IsSlashed (path : String) : Prop := normalPath (some path) = normalSegment (some path)

instance (path : String) : Decidable (IsSlashed path) := inferInstanceAs (Decidable (_ = _))

/-- What a route is listed by: its domain, and its host and its path as they are spelled. -/
def spelledFilters (domainId host path : String) : Filters :=
  [(.domainId, domainId), (.host, host), (.path, path)]

theorem isSlashed_normalPath (value : Option String) : IsSlashed (normalPath value) := by
  rw [IsSlashed, normalPath_idem, normalSegment_of_trimmed (normalPath_trimmed value)]

namespace Store

variable {τ : Type} {s : Store τ} {w : World (Store τ) τ} {r : Route} {domainId host path : String}

theorem Spelled.path_idem (h : Spelled r) : normalPath (some r.path) = r.path :=
  normalPath_of_trimmed h.path h.slashed

/-- A stored path is what a text comes to without its blanks only if the text has its slash. -/
theorem Spelled.path_eq_iff (h : Spelled r) :
    r.path = normalSegment (some path) ↔ r.path = normalPath (some path) ∧ IsSlashed path := by
  constructor
  · intro hpath
    have hnormal : normalPath (some path) = r.path := by
      rw [← normalPath_normalSegment, ← hpath, h.path_idem]
    exact ⟨hnormal.symm, hnormal.trans hpath⟩
  · rintro ⟨hpath, hslashed⟩
    exact hpath.trans hslashed

/-- Exact filters pass the routes of the key that they spell, unless the path lacks its slash. -/
theorem routeFits_spelled (strict : s.substringFilters = false) (h : Spelled r) :
    s.routeFits (spelledFilters domainId host path) r = true ↔
      r.key = .of domainId (some host) (some path) ∧ IsSlashed path := by
  have hfits : s.routeFits (spelledFilters domainId host path) r = true ↔
      r.domainId = domainId ∧ r.host = normalSegment (some host) ∧
        r.path = normalSegment (some path) := by
    simp [routeFits, spelledFilters, passes, Filters.get?, segmentFits, strict, and_assoc]
  rw [hfits, h.path_eq_iff, Route.key, RouteKey.of, RouteKey.mk.injEq, and_assoc, and_assoc]

theorem filter_spelled (strict : s.substringFilters = false)
    (spelled : ∀ r ∈ s.routes.items, Spelled r) :
    s.routes.items.filter (s.routeFits (spelledFilters domainId host path)) =
      if IsSlashed path then s.routesAt (.of domainId (some host) (some path)) else [] := by
  by_cases hslashed : IsSlashed path
  · rw [if_pos hslashed]
    refine List.filter_congr fun r hr => ?_
    rw [Bool.eq_iff_iff, routeFits_spelled strict (spelled r hr), beq_iff_eq]
    exact and_iff_left hslashed
  · rw [if_neg hslashed, List.filter_eq_nil_iff]
    intro r hr hfits
    exact hslashed ((routeFits_spelled strict (spelled r hr)).mp hfits).2

theorem Reachable.spelled (h : s.Reachable) : ∀ r ∈ s.routes.items, Spelled r := by
  obtain ⟨pageSize, loose, s₀, moves, hnew, rfl⟩ := reachable_iff.mp h
  exact (history_represented hnew moves).2.2.2.2.spelled

/-- On a known domain a route is refused just where one of its key is stored. -/
theorem createRoute_taken_iff (known : w.platform.domains.contains domainId = true)
    (spaceId : String) (host path : Option String) :
    ((Run.createRoute domainId spaceId host path).run w).1 = .error hostTaken ↔
      w.platform.routesAt (.of domainId host path) ≠ [] := by
  have hstored : (w.platform.routes.items.any fun r => r.key == .of domainId host path) = true ↔
      w.platform.routesAt (.of domainId host path) ≠ [] := by
    rw [routesAt, ne_eq, List.filter_eq_nil_iff, List.any_eq_true]
    push Not
    rfl
  change ((createRoute domainId spaceId host path).run w.platform).1 = _ ↔ _
  rw [run_createRoute, known, ← hstored]
  dsimp only
  rw [if_neg (by decide)]
  split
  · rename_i htaken
    exact iff_of_true rfl htaken
  · rename_i hfree
    -- What is not refused here may still fail, but for want of a domain.
    refine iff_of_false ?_ hfree
    rw [run_addRoute]
    split <;> simp [hostTaken]

end Store

/-- All pages of a listing of routes show these, unless a failure is set up for the listing. -/
def World.ListsRoutes {τ : Type} (w : World (Store τ) τ) (filters : Filters) (routes : List Route) :
    Prop :=
  Ends (Run.listAll .routes filters) w
    (match w.platform.failureOf? .routes filters with
      | some failure => .error failure
      | none => .ok routes)
    (w.logged (Store.pageRequests .routes filters 1 (w.platform.pagesRead .routes filters)))

namespace Store

variable {τ : Type} {w : World (Store τ) τ} {domainId : String}

theorem lists_spelled (reachable : w.platform.Reachable) (strict : w.platform.substringFilters = false)
    (domainId host path : String) : w.ListsRoutes (spelledFilters domainId host path)
      (if IsSlashed path then w.platform.routesAt (.of domainId (some host) (some path)) else []) := by
  rw [← filter_spelled strict reachable.spelled]
  exact listAll_ends reachable.sound.paged .routes (spelledFilters domainId host path)

/-- On a known domain of a platform with exact filters, a route is refused as taken just where the
listing by its domain, its host and the normal form of its path shows one. The listing by the path
as it is spelled shows one just there too, but only if the path has its slash. -/
theorem createRoute_taken_iff_listed (reachable : w.platform.Reachable)
    (strict : w.platform.substringFilters = false)
    (known : w.platform.domains.contains domainId = true) (spaceId host path : String) :
    ∃ normal spelled,
      w.ListsRoutes (spelledFilters domainId host (normalPath (some path))) normal ∧
      w.ListsRoutes (spelledFilters domainId host path) spelled ∧
      (((Run.createRoute domainId spaceId (some host) (some path)).run w).1 = .error hostTaken ↔
        normal ≠ []) ∧
      (spelled ≠ [] ↔
        ((Run.createRoute domainId spaceId (some host) (some path)).run w).1 = .error hostTaken ∧
          IsSlashed path) := by
  have htaken := createRoute_taken_iff known spaceId (some host) (some path)
  have hnormal := lists_spelled reachable strict domainId host (normalPath (some path))
  rw [if_pos (isSlashed_normalPath _)] at hnormal
  have hkey : RouteKey.of domainId (some host) (some (normalPath (some path))) =
      .of domainId (some host) (some path) := by
    rw [RouteKey.of, normalPath_idem]
    rfl
  rw [hkey] at hnormal
  refine ⟨_, _, hnormal, lists_spelled reachable strict domainId host path, htaken, ?_⟩
  rw [htaken]
  by_cases hslashed : IsSlashed path
  · rw [if_pos hslashed]
    exact (and_iff_left hslashed).symm
  · rw [if_neg hslashed]
    exact iff_of_false (fun h => h rfl) fun h => hslashed h.2

/-- Two routes of one domain, listed on a page each. -/
def takenWorld : World (Store ℚ) ℚ where
  platform := ({ pageSize := 1, substringFilters := false } : Store ℚ).filled
    [.sharedDomain "example.com", .route "shared-domain-1" "space-1" (some "api") (some "v1") none,
      .route "shared-domain-1" "space-2" none none none]
  clock := 0
  fetchCost := 0
  cancelAt := none
  sleeps := []
  events := []
  patience := 0

theorem takenWorld_reachable : takenWorld.platform.Reachable :=
  .filled (.new 1 false _ rfl) _

/-- A path that is written with blanks and without its slash is taken, and is listed only in its
normal form. -/
theorem createRoute_taken_iff_listed_padded :
    takenWorld.platform.Reachable ∧ takenWorld.platform.substringFilters = false ∧
      takenWorld.platform.domains.contains "shared-domain-1" = true ∧
      ((Run.createRoute "shared-domain-1" "space-2" (some "api\t") (some " v1")).run takenWorld).1 =
        .error hostTaken ∧
      (∃ normal, normal ≠ [] ∧
        takenWorld.ListsRoutes (spelledFilters "shared-domain-1" "api\t" "/v1") normal) ∧
      takenWorld.ListsRoutes (spelledFilters "shared-domain-1" "api\t" " v1") [] := by
  have known : takenWorld.platform.domains.contains "shared-domain-1" = true := by decide +kernel
  have hpath : normalPath (some " v1") = "/v1" := by decide +kernel
  have htaken : ((Run.createRoute "shared-domain-1" "space-2" (some "api\t") (some " v1")).run
      takenWorld).1 = .error hostTaken :=
    (createRoute_taken_iff known "space-2" _ _).mpr (by decide +kernel)
  obtain ⟨normal, spelled, hnormal, hspelled, hiff, hslash⟩ :=
    createRoute_taken_iff_listed takenWorld_reachable rfl known "space-2" "api\t" " v1"
  have hbare : ¬ IsSlashed " v1" := by decide +kernel
  obtain rfl : spelled = [] := by
    by_contra hshown
    exact hbare (hslash.mp hshown).2
  rw [hpath] at hnormal
  exact ⟨takenWorld_reachable, rfl, known, htaken, ⟨normal, hiff.mp htaken, hnormal⟩, hspelled⟩

/-- The route that is refused as taken is not listed by the very path that it was refused for. -/
theorem createRoute_taken_unlisted :
    takenWorld.platform.Reachable ∧ takenWorld.platform.substringFilters = false ∧
      takenWorld.platform.domains.contains "shared-domain-1" = true ∧
      ((Run.createRoute "shared-domain-1" "space-1" (some "api") (some "v1")).run takenWorld).1 =
        .error hostTaken ∧
      ∃ v, Ends (Run.listAll .routes
        [(.domainId, "shared-domain-1"), (.host, "api"), (.path, "v1")]) takenWorld (.ok []) v := by
  have known : takenWorld.platform.domains.contains "shared-domain-1" = true := by decide +kernel
  refine ⟨takenWorld_reachable, rfl, known,
    (createRoute_taken_iff known "space-1" _ _).mpr (by decide +kernel), _,
    lists_spelled takenWorld_reachable rfl "shared-domain-1" "api" "v1"⟩

end Store

end PlatformRoutes
