import PlatformRoutes.Proofs.Matching
import PlatformRoutes.Proofs.RouteRecords

namespace PlatformRoutes

namespace Store

variable {τ α : Type} {s : Store τ} {w : World (Store τ) τ} {filters : Filters} {name : String}

def ownApplications (s : Store τ) (spaceId : String) : List Owned :=
  s.applications.items.filter fun o => o.owner == spaceId

/-- The stored records that a lookup looks among. -/
def candidates (s : Store τ) : (q : Query) → List q.resource.Item
  | .organization _ => s.organizations.items
  | .space organizationId _ => (s.ownSpaces organizationId).map Owned.ref
  | .application spaceId _ => (s.ownApplications spaceId).map Owned.ref
  | .ownedDomain organizationId _ => s.ownDomains organizationId
  | .sharedDomain _ => s.sharedDomains
  | .route domain _ _ => s.routes.items.filter fun r => r.domainId == domain.id

/-- The domains that a name stands for in an organization: its private ones, or else the shared
ones. -/
def domainsNamed (s : Store τ) (organizationId name : String) : List Domain :=
  let owned := (s.ownDomains organizationId).filter fun d => d.name == name
  if owned.isEmpty then s.sharedDomains.filter fun d => d.name == name else owned

theorem resource_of_asked {q : Query} {r : Request} (h : r ∈ s.asked q) :
    r.resource? = some q.resource := by
  obtain ⟨n, -, rfl⟩ := List.mem_map.mp h
  rfl

/-- Even a lookup that finds nothing asks for a page. -/
theorem exists_asked (s : Store τ) (q : Query) : ∃ r, r ∈ s.asked q := by
  have hpages : 1 ≤ s.pagesRead q.resource q.filters := by
    unfold pagesRead
    split
    · exact Nat.le_refl 1
    · exact Nat.le_max_left 1 _
  refine ⟨_, List.mem_map_of_mem (List.mem_range'_1.mpr ⟨Nat.le_refl 1, ?_⟩)⟩
  omega

/-- Comparing names again leaves what a filter for the name has left, within any scope. -/
theorem filter_nameFits (h : filters.get? .name = some name) (nameOf : α → String)
    (inScope : α → Bool) (l : List α) :
    (l.filter fun a => inScope a && nameFits filters (nameOf a)).filter (fun a => nameOf a == name) =
      (l.filter inScope).filter fun a => nameOf a == name := by
  rw [List.filter_filter, List.filter_filter]
  refine List.filter_congr fun a _ => ?_
  have hname : nameFits filters (nameOf a) = (nameOf a == name) := by rw [nameFits, passes, h]
  rw [hname]
  cases nameOf a == name with
  | true => rw [Bool.true_and, Bool.true_and, Bool.and_true]
  | false => rfl

theorem filter_ownedBy (h : filters.get? .name = some name) (register : Register Owned)
    (owner : String) :
    (ownedBy register filters owner).filter (fun r => r.name == name) =
      ((register.items.filter fun o => o.owner == owner).map Owned.ref).filter
        fun r => r.name == name := by
  rw [ownedBy, List.filter_map, List.filter_map]
  exact congrArg _ (filter_nameFits h (fun o : Owned => o.ref.name) _ _)

/-- What a lookup comes to, unless a failure is set up for its listing. -/
def unlessFailing (s : Store τ) (q : Query) (outcome : Except (Failure τ) α) :
    Except (Failure τ) α :=
  match s.failureOf? q.resource q.filters with
  | some failure => .error failure
  | none => outcome

/-- A lookup comes to all the stored records that it is after. -/
theorem found_candidates (s : Store τ) (q : Query) :
    (s.listing q.resource q.filters).map (List.filter q.means) =
      s.unlessFailing q (.ok ((s.candidates q).filter q.means)) := by
  unfold listing unlessFailing
  cases s.failureOf? q.resource q.filters with
  | some failure => rfl
  | none =>
    cases q with
    | organization name =>
      have hname : (Query.organization name).filters.get? .name = some name := rfl
      have hnames := filter_nameFits hname Ref.name (fun _ => true) s.organizations.items
      rw [List.filter_true] at hnames
      exact congrArg Except.ok hnames
    | space organizationId name => exact congrArg Except.ok (filter_ownedBy rfl s.spaces organizationId)
    | application spaceId name => exact congrArg Except.ok (filter_ownedBy rfl s.applications spaceId)
    | ownedDomain organizationId name =>
      exact congrArg Except.ok (filter_nameFits rfl Domain.name
        (fun d => d.kind == .owned && d.owner == some organizationId) s.domains.items)
    | sharedDomain name =>
      exact congrArg Except.ok (filter_nameFits rfl Domain.name (fun d => d.kind == .shared)
        s.domains.items)
    | route domain host path =>
      refine congrArg Except.ok ?_
      rw [List.filter_filter, candidates, List.filter_filter]
      refine List.filter_congr fun r _ => ?_
      change (r.fits host path && s.routeFits _ r) = (r.fits host path && (r.domainId == domain.id))
      cases hfits : r.fits host path with
      | true => rw [Query.filters, routeFits_of_fits s domain hfits]
      | false => rfl

theorem unlessFailing_calm (calm : s.listFailures = []) (q : Query)
    (outcome : Except (Failure τ) α) : s.unlessFailing q outcome = outcome := by
  rw [unlessFailing, failureOf?, calm]
  rfl

theorem found_stored_ends (hpaged : 0 < w.platform.pageSize) (calm : w.platform.listFailures = [])
    (q : Query) :
    Ends (Run.found q) w (.ok ((w.platform.candidates q).filter q.means))
      (w.logged (w.platform.asked q)) := by
  have hfound := found_ends hpaged q
  rwa [found_candidates, unlessFailing_calm calm] at hfound

end Store

/-- A lookup by name decides among some records, and leaves nothing but its requests behind. -/
def World.Resolves {τ α : Type} (w : World (Store τ) τ) (x : Run (Store τ) τ α)
    (kind : ResourceKind) (name : String) (namesakes : List α) (requests : List Request) : Prop :=
  ∃ outcome, Decides kind name namesakes outcome ∧ Ends x w outcome (w.logged requests)

namespace Store

variable {τ α : Type} {w : World (Store τ) τ}

theorem resolves_found (hpaged : 0 < w.platform.pageSize) (calm : w.platform.listFailures = [])
    (q : Query) (kind : ResourceKind) (name : String) :
    w.Resolves (Run.found q >>= Run.single kind name) kind name
      ((w.platform.candidates q).filter q.means) (w.platform.asked q) := by
  obtain ⟨outcome, hdecides, hsingle⟩ :=
    decides_single (τ := τ) kind name ((w.platform.candidates q).filter q.means)
  exact ⟨outcome, hdecides, (found_stored_ends hpaged calm q).bind (hsingle _)⟩

/-- Domains of the organization come first, and only without one are shared domains listed. -/
theorem resolves_domain (hpaged : 0 < w.platform.pageSize) (calm : w.platform.listFailures = [])
    (organizationId name : String) :
    ∃ requests, w.Resolves (Run.resolveDomain organizationId name) .domain name
        (w.platform.domainsNamed organizationId name) requests ∧
      ((∃ q ∈ requests, q.resource? = some .sharedDomains) ↔
        (w.platform.ownDomains organizationId).filter (fun d => d.name == name) = []) := by
  have howned := found_stored_ends hpaged calm (.ownedDomain organizationId name)
  change Ends _ _ (.ok ((w.platform.ownDomains organizationId).filter fun d => d.name == name)) _
    at howned
  unfold domainsNamed
  generalize (w.platform.ownDomains organizationId).filter (fun d => d.name == name) = owned at *
  cases owned with
  | nil =>
    obtain ⟨outcome, hdecides, hshared⟩ :=
      resolves_found (w := w.logged (w.platform.asked (.ownedDomain organizationId name)))
        hpaged calm (.sharedDomain name) .domain name
    rw [logged_logged] at hshared
    refine ⟨_, ⟨outcome, hdecides, howned.bind hshared⟩, fun _ => rfl, fun _ => ?_⟩
    obtain ⟨r, hr⟩ := exists_asked
      (w.logged (w.platform.asked (.ownedDomain organizationId name))).platform (.sharedDomain name)
    exact ⟨r, List.mem_append_right _ hr, resource_of_asked hr⟩
  | cons d rest =>
    obtain ⟨outcome, hdecides, hsingle⟩ := decides_single (τ := τ) .domain name (d :: rest)
    refine ⟨_, ⟨outcome, hdecides, howned.bind (hsingle _)⟩, fun hshared => ?_, fun h => ?_⟩
    · obtain ⟨r, hr, hresource⟩ := hshared
      rw [resource_of_asked hr] at hresource
      cases hresource
    · cases h

/-- On a platform where no listing fails, a name resolves to the only one of the stored
organizations, of the spaces of an organization or of the applications of a space that has it. A
domain's name resolves to the only one of the organization's domains that has it; where none of
these does, and only there, the shared domains are listed and decide in the same way. -/
theorem resolve_exact (hpaged : 0 < w.platform.pageSize) (calm : w.platform.listFailures = [])
    (scopeId name : String) :
    (∃ requests, w.Resolves (Run.resolveOrganization name) .organization name
      (w.platform.organizations.items.filter fun r => r.name == name) requests) ∧
    (∃ requests, w.Resolves (Run.resolveSpace scopeId name) .space name
      (((w.platform.ownSpaces scopeId).map Owned.ref).filter fun r => r.name == name) requests) ∧
    (∃ requests, w.Resolves (Run.resolveApplication scopeId name) .application name
      (((w.platform.ownApplications scopeId).map Owned.ref).filter fun r => r.name == name)
      requests) ∧
    ∃ requests, w.Resolves (Run.resolveDomain scopeId name) .domain name
        (w.platform.domainsNamed scopeId name) requests ∧
      ((∃ q ∈ requests, q.resource? = some .sharedDomains) ↔
        (w.platform.ownDomains scopeId).filter (fun d => d.name == name) = []) :=
  ⟨⟨_, resolves_found hpaged calm (.organization name) .organization name⟩,
    ⟨_, resolves_found hpaged calm (.space scopeId name) .space name⟩,
    ⟨_, resolves_found hpaged calm (.application scopeId name) .application name⟩,
    resolves_domain hpaged calm scopeId name⟩

/-- Private and shared domains of the same names, on pages of one item each. -/
def namesakesWorld : World (Store Nat) Nat where
  platform :=
    { pageSize := 1
      substringFilters := true
      spaces :=
        [⟨.of "s1" "dev", "org"⟩, ⟨.of "s2" "dev", "other"⟩, ⟨.of "s3" "devel", "org"⟩].foldl
          Register.put ∅
      domains :=
        [⟨"d1", "apps.test", .owned, some "org"⟩, ⟨"d2", "web.test", .owned, some "other"⟩,
          ⟨"d3", "apps.test", .shared, none⟩, ⟨"d4", "web.test", .shared, none⟩,
          ⟨"d5", "apps.test", .owned, some "org"⟩].foldl Register.put ∅ }
  clock := 0
  fetchCost := 0
  cancelAt := none
  sleeps := []
  events := []
  patience := 0

/-- Two private domains are ambiguous though only one shared one has their name, and a domain of
another organization hides no shared one. -/
theorem resolve_exact_namesakes :
    0 < namesakesWorld.platform.pageSize ∧ namesakesWorld.platform.listFailures = [] ∧
      (∃ v, Ends (Run.resolveDomain "org" "apps.test") namesakesWorld
        (.error (.ambiguous .domain "apps.test" 2)) v) ∧
      (∃ v, Ends (Run.resolveDomain "org" "web.test") namesakesWorld
        (.ok ⟨"d4", "web.test", .shared, none⟩) v) ∧
      ∃ v, Ends (Run.resolveSpace "org" "dev") namesakesWorld (.ok (.of "s1" "dev")) v := by
  have hpaged : 0 < namesakesWorld.platform.pageSize := by decide
  obtain ⟨-, -, -, _, ⟨apps, happs, hends⟩, -⟩ := resolve_exact hpaged rfl "org" "apps.test"
  obtain ⟨-, -, -, _, ⟨web, hweb, hends'⟩, -⟩ := resolve_exact hpaged rfl "org" "web.test"
  obtain ⟨-, ⟨_, dev, hdev, hends''⟩, -⟩ := resolve_exact hpaged rfl "org" "dev"
  rw [happs.several (by decide)] at hends
  rw [hweb.only _ rfl] at hends'
  rw [hdev.only _ rfl] at hends''
  exact ⟨hpaged, rfl, ⟨_, hends⟩, ⟨_, hends'⟩, _, hends''⟩

end Store

end PlatformRoutes
