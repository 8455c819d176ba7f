import PlatformRoutes.Proofs.Plans
import PlatformRoutes.Proofs.Register

namespace PlatformRoutes

namespace Store

variable {τ : Type} {s : Store τ}

/-- The domains that are private to an organization. -/
def ownDomains (s : Store τ) (organizationId : String) : List Domain :=
  s.domains.items.filter fun d => d.kind == .owned && d.owner == some organizationId

def sharedDomains (s : Store τ) : List Domain :=
  s.domains.items.filter fun d => d.kind == .shared

def ownSpaces (s : Store τ) (organizationId : String) : List Owned :=
  s.spaces.items.filter fun o => o.owner == organizationId

/-- The routes whose space belongs to an organization. -/
def routesIn (s : Store τ) (organizationId : String) : List Route :=
  s.routes.items.filter fun r => s.organizationOf r.spaceId == some organizationId

/-- The name of a domain that an organization can use, be it shared or private to it. -/
def domainName (s : Store τ) (organizationId id : String) : String :=
  ((s.domains.find? id).filter fun d => d.kind == .shared || d.owner == some organizationId).elim ""
    Domain.name

/-- The name of a space of an organization. -/
def spaceName (s : Store τ) (organizationId id : String) : String :=
  ((s.spaces.find? id).filter fun o => o.owner == organizationId).elim "" fun o => o.ref.name

/-- The names of the applications of a route, in the order in which they were associated. -/
def applicationNames (s : Store τ) (routeId : String) : List String :=
  (s.associations.filter fun a => a.2 == routeId).map fun a =>
    (s.applications.find? a.1).elim "" fun o => o.ref.name

theorem select_ownDomains (s : Store τ) (organizationId : String) :
    s.select .organizationPrivateDomains [(.organizationId, organizationId)] =
      .ok (s.ownDomains organizationId) := by
  simp [select, parent, nameFits, passes, Filters.get?, ownDomains]

theorem select_sharedDomains (s : Store τ) :
    s.select .sharedDomains [] = .ok s.sharedDomains := by
  simp [select, nameFits, passes, Filters.get?, sharedDomains]

theorem select_ownSpaces (s : Store τ) (organizationId : String) :
    s.select .organizationSpaces [(.organizationId, organizationId)] =
      .ok ((s.ownSpaces organizationId).map Owned.ref) := by
  simp [select, parent, ownedBy, nameFits, passes, Filters.get?, ownSpaces]

theorem select_routesIn (s : Store τ) (organizationId : String) :
    s.select .routes [(.organizationId, organizationId)] = .ok (s.routesIn organizationId) := by
  change Except.ok (s.routes.items.filter (s.routeFits [(.organizationId, organizationId)])) = _
  congr 2

/-- Where all applications in use are known, those of a route are listed with their names. -/
theorem select_applications (known : ∀ a ∈ s.associations, s.applications.contains a.1 = true)
    (routeId : String) : ∃ items : List Ref,
      s.select .routeApplications [(.routeId, routeId)] = .ok items ∧
        items.map Ref.name = s.applicationNames routeId := by
  have hfound : ∀ a ∈ s.associations.filter fun a => a.2 == routeId,
      ∃ o : Owned, s.applications.find? a.1 = some o := by
    intro a ha
    have hknown := known a (List.mem_filter.mp ha).1
    exact Option.isSome_iff_exists.mp hknown
  have hall : ∀ a ∈ s.associations.filter fun a => a.2 == routeId,
      ∃ ref : Ref, (s.application a.1 : Except (Failure τ) Ref) = .ok ref := by
    intro a ha
    obtain ⟨o, ho⟩ := hfound a ha
    exact ⟨o.ref, by rw [application, ho]⟩
  obtain ⟨items, hitems⟩ := exists_mapM_ok hall
  refine ⟨items, hitems, map_of_mapM_ok hitems ?_⟩
  intro a ha ref href
  obtain ⟨o, ho⟩ := hfound a ha
  rw [application, ho] at href
  cases href
  rw [ho]
  rfl

/-- The requests for all names that routes are joined with. -/
def namesPlan (s : Store τ) (organizationId : String) : List Request :=
  s.wholeListing .organizationPrivateDomains [(.organizationId, organizationId)]
      (s.ownDomains organizationId).length ++
    s.wholeListing .sharedDomains [] s.sharedDomains.length ++
    s.wholeListing .organizationSpaces [(.organizationId, organizationId)]
      (s.ownSpaces organizationId).length

/-- The requests for the applications of a route. -/
def applicationsPlan (s : Store τ) (r : Route) : List Request :=
  s.wholeListing .routeApplications [(.routeId, r.id)] (s.applicationNames r.id).length

end Store

namespace Orchestrator

variable {τ : Type} {w : World (Store τ) τ} {s : Store τ} {table : NameTable} {id name : String}

theorem nameOf_of_mem (h : (id, name) ∈ table) (unique : ∀ e ∈ table, e.1 = id → e.2 = name) :
    nameOf table id = name := by
  unfold nameOf
  cases hfind : table.reverse.find? fun e => e.1 == id with
  | none =>
    have hnone := List.find?_eq_none.mp hfind (id, name) (List.mem_reverse.mpr h)
    simp at hnone
  | some e =>
    have hid := List.find?_some hfind
    exact unique e (List.mem_reverse.mp (List.mem_of_find?_eq_some hfind)) (by simpa using hid)

theorem nameOf_of_notMem (h : ∀ e ∈ table, e.1 ≠ id) : nameOf table id = "" := by
  unfold nameOf
  rw [List.find?_eq_none.mpr]
  intro e he
  simpa using h e (List.mem_reverse.mp he)

/-- A table that names some things of a register has the name of such a thing under its id, and
nothing under any other. -/
theorem nameOf_register {α : Type} [Keyed α] {r : Register α} {named : α → Bool} {name : α → String}
    (h : ∀ e, e ∈ table ↔ ∃ a ∈ r.items, named a = true ∧ (Keyed.key a, name a) = e) (id : String) :
    nameOf table id = ((r.find? id).filter named).elim "" name := by
  cases hfind : r.find? id with
  | none =>
    apply nameOf_of_notMem
    intro e he hid
    obtain ⟨a, ha, -, rfl⟩ := (h e).mp he
    have hsome := Register.find?_eq_some_iff.mpr ⟨ha, hid⟩
    rw [hfind] at hsome
    cases hsome
  | some a =>
    obtain ⟨ha, rfl⟩ := Register.find?_eq_some_iff.mp hfind
    by_cases hnamed : named a = true
    · simp only [Option.filter, hnamed, if_true, Option.elim]
      apply nameOf_of_mem ((h _).mpr ⟨a, ha, hnamed, rfl⟩)
      intro e he hid
      obtain ⟨b, hb, -, rfl⟩ := (h e).mp he
      rw [Register.eq_of_key hb ha hid]
    · simp only [Option.filter, hnamed, Option.elim]
      apply nameOf_of_notMem
      intro e he hid
      obtain ⟨b, hb, hb', rfl⟩ := (h e).mp he
      rw [Register.eq_of_key hb ha hid] at hb'
      exact hnamed hb'

/-- What the directory of an organization holds. -/
def namesOf (s : Store τ) (organizationId : String) : Directory where
  domains := (s.ownDomains organizationId).map (fun d => (d.id, d.name)) ++
    s.sharedDomains.map fun d => (d.id, d.name)
  spaces := ((s.ownSpaces organizationId).map Owned.ref).map fun r => (r.id, r.name)

theorem nameOf_domains (s : Store τ) (organizationId id : String) :
    nameOf (namesOf s organizationId).domains id = s.domainName organizationId id := by
  apply nameOf_register (r := s.domains)
  intro e
  simp only [namesOf, Store.ownDomains, Store.sharedDomains, List.mem_append, List.mem_map,
    List.mem_filter, Bool.and_eq_true, Bool.or_eq_true, beq_iff_eq]
  constructor
  · rintro (⟨d, ⟨hd, -, howner⟩, rfl⟩ | ⟨d, ⟨hd, hkind⟩, rfl⟩)
    · exact ⟨d, hd, .inr howner, rfl⟩
    · exact ⟨d, hd, .inl hkind, rfl⟩
  · rintro ⟨d, hd, hnamed, rfl⟩
    cases hkind : d.kind with
    | shared => exact .inr ⟨d, ⟨hd, hkind⟩, rfl⟩
    | owned =>
      rw [hkind] at hnamed
      exact .inl ⟨d, ⟨hd, hkind, by simpa using hnamed⟩, rfl⟩

theorem nameOf_spaces (s : Store τ) (organizationId id : String) :
    nameOf (namesOf s organizationId).spaces id = s.spaceName organizationId id := by
  apply nameOf_register (r := s.spaces)
  intro e
  simp only [namesOf, Store.ownSpaces, List.map_map, List.mem_map, List.mem_filter, beq_iff_eq,
    and_assoc]
  rfl

theorem follows_directory (hw : w.Patient) (o : Orchestrator τ) :
    Store.Follows o.directory w (w.platform.namesPlan o.organizationId)
      (namesOf w.platform o.organizationId) := by
  have hown := Store.follows_listAll hw (Store.select_ownDomains w.platform o.organizationId)
  have hshared := Store.follows_listAll hw (Store.select_sharedDomains w.platform)
  have hspaces := Store.follows_listAll hw (Store.select_ownSpaces w.platform o.organizationId)
  rw [List.length_map] at hspaces
  rw [Store.namesPlan, List.append_assoc]
  apply hown.bind
  apply hshared.bind
  exact hspaces.returning _

end Orchestrator

/-- The listing that a level goes through. -/
def Level.resource : Level → Resource
  | .organization => .routes
  | .space => .spaceRoutes

namespace Orchestrator

variable {τ : Type} {w : World (Store τ) τ} {s : Store τ}

/-- What the listing of a level is narrowed to. -/
def scope (o : Orchestrator τ) : Level → Filters
  | .organization => [(.organizationId, o.organizationId)]
  | .space => [(.spaceId, o.spaceId.getD "")]

/-- The routes of a level, in the order in which they are stored. -/
def levelRoutes (o : Orchestrator τ) (s : Store τ) : Level → List Route
  | .organization => s.routesIn o.organizationId
  | .space => s.routesOf (o.spaceId.getD "")

/-- A route with the names of its domain and of its space, as far as they are known to the
organization, and of its applications. -/
def record (o : Orchestrator τ) (s : Store τ) (r : Route) : RouteRecord where
  id := r.id
  host := r.host
  path := r.path
  domain := s.domainName o.organizationId r.domainId
  space := s.spaceName o.organizationId r.spaceId
  applications := s.applicationNames r.id
  serviceInstanceId := r.serviceInstanceId

/-- The requests of a listing: those for the names, then each page of routes with, before the next,
those for the applications of its routes. -/
def listPlan (o : Orchestrator τ) (s : Store τ) (level : Level) : List Request :=
  s.namesPlan o.organizationId ++
    (List.range (max 1 (Store.pageCount s.pageSize (o.levelRoutes s level).length))).flatMap
      (s.pagePlan level.resource (o.scope level) (o.levelRoutes s level) s.applicationsPlan)

theorem follows_join (hw : w.Patient) (o : Orchestrator τ)
    (known : ∀ a ∈ w.platform.associations, w.platform.applications.contains a.1 = true) (r : Route) :
    Store.Follows (join (namesOf w.platform o.organizationId) r) w (w.platform.applicationsPlan r)
      (o.record w.platform r) := by
  obtain ⟨items, hitems, hnames⟩ := Store.select_applications known r.id
  have hlist := Store.follows_listAll hw hitems
  have hlength : items.length = (w.platform.applicationNames r.id).length := by
    rw [← hnames, List.length_map]
  rw [hlength] at hlist
  rw [record, ← nameOf_domains, ← nameOf_spaces, ← hnames]
  exact hlist.returning fun applications : List Ref => ({
    id := r.id
    host := r.host
    path := r.path
    domain := nameOf (namesOf w.platform o.organizationId).domains r.domainId
    space := nameOf (namesOf w.platform o.organizationId).spaces r.spaceId
    applications := applications.map Ref.name
    serviceInstanceId := r.serviceInstanceId } : RouteRecord)

/-- Going through the routes of a level once its listing is known to yield them. -/
theorem follows_routes {resource : Resource} {filters : Filters} {routes : List resource.Item}
    {handle : resource.Item → Run (Store τ) τ RouteRecord} {visit : resource.Item → List Request}
    {make : resource.Item → RouteRecord} (hw : w.Patient)
    (hselect : w.platform.select resource filters = .ok routes)
    (hhandle : ∀ r, Store.Follows (handle r) w (visit r) (make r)) :
    Store.Follows (do Paging.traverse (Run.pagesOf resource filters) handle (← get).patience 1) w
      ((List.range (max 1 (Store.pageCount w.platform.pageSize routes.length))).flatMap
        (w.platform.pagePlan resource filters routes visit)) (routes.map make) := by
  apply Store.Follows.patient (g := fun n => Paging.traverse (Run.pagesOf resource filters) handle n 1)
  have hpatience := (Store.pages_le_extent hw.paged hselect).trans hw.extent
  have hall := Store.follows_traverse hw.paged hselect (fun r _ => hhandle r) w.patience 0 hpatience
  rwa [Nat.sub_zero, ← List.range_eq_range', Nat.zero_mul, List.drop_zero] at hall

theorem follows_list (hw : w.Patient) (o : Orchestrator τ) (level : Level)
    (known : ∀ a ∈ w.platform.associations, w.platform.applications.contains a.1 = true)
    (target : level = .space → o.spaceId.getD "" ≠ "") :
    Store.Follows (o.list level) w (o.listPlan w.platform level)
      ((o.levelRoutes w.platform level).map (o.record w.platform)) := by
  have hnames := follows_directory hw o
  have hjoin := follows_join hw o known
  cases level with
  | organization =>
    have hroutes := follows_routes hw (Store.select_routesIn w.platform o.organizationId) hjoin
    exact hnames.bind hroutes
  | space =>
    have hroutes := follows_routes hw (Store.select_routesOf (o.spaceId.getD "")) hjoin
    unfold list routePages
    rw [requireSpace_of_target (target rfl)]
    exact hnames.bind hroutes

/-- Listing the routes of a level is joining them with their names, for no more than one listing of
all domains and spaces and one of the applications of each route. It goes on up to the first request
that is turned down. -/
theorem list_exact (o : Orchestrator τ) (level : Level) (hpos : 0 < w.platform.pageSize)
    (known : ∀ a ∈ w.platform.associations, w.platform.applications.contains a.1 = true) :
    (level = .space → o.spaceId.getD "" = "" → Ends (o.list level) w (.error noSpace) w) ∧
      ((level = .space → o.spaceId.getD "" ≠ "") →
        ((∀ q ∈ o.listPlan w.platform level, w.platform.denial q = none) →
          Ends (o.list level) w (.ok ((o.levelRoutes w.platform level).map (o.record w.platform)))
            (w.logged (o.listPlan w.platform level))) ∧
        ∀ before q later f, o.listPlan w.platform level = before ++ q :: later →
          (∀ r ∈ before, w.platform.denial r = none) → w.platform.denial q = some f →
          Ends (o.list level) w (.error f) (w.logged (before ++ [q]))) := by
  refine ⟨?_, ?_⟩
  · intro hlevel untargeted
    subst hlevel
    apply Ends.bind_error
    rw [routePages, requireSpace_of_none untargeted]
    exact Ends.bind_error (Ends.throw noSpace w)
  · intro target
    have hfollows : ∀ n, w.platform.extent + 1 ≤ n →
        Store.Follows (o.list level) { w with patience := n } (o.listPlan w.platform level)
          ((o.levelRoutes w.platform level).map (o.record w.platform)) := by
      intro n hn
      exact follows_list (w := { w with patience := n }) ⟨hpos, hn⟩ o level known target
    refine ⟨?_, ?_⟩
    · intro hgranted
      exact ⟨w.platform.extent + 1, fun n hn => (hfollows n hn).granted hgranted⟩
    · intro before q later f hplan hbefore hq
      exact ⟨w.platform.extent + 1, fun n hn => (hfollows n hn).denied hplan hbefore hq⟩

/-- Three routes of a space on two pages: one on a domain of the organization and with applications,
one on a domain of another organization and one on a domain that is not stored. -/
def mixedWorld : World (Store Nat) Nat where
  platform :=
    { pageSize := 2
      substringFilters := false
      spaces := [⟨.of "s" "dev", "org"⟩, ⟨.of "t" "ops", "other"⟩].foldl Register.put ∅
      domains :=
        [⟨"d1", "own.test", .owned, some "org"⟩, ⟨"d2", "all.test", .shared, none⟩,
          ⟨"d3", "alien.test", .owned, some "other"⟩].foldl Register.put ∅
      applications := [⟨.of "a1" "web", "s"⟩, ⟨.of "a2" "api", "s"⟩].foldl Register.put ∅
      routes :=
        [⟨"r1", "d1", "s", "a", "", none⟩, ⟨"r2", "d3", "s", "b", "/v2", some "service"⟩,
          ⟨"r3", "gone", "s", "c", "", none⟩, ⟨"r4", "d2", "t", "d", "", none⟩].foldl Register.put ∅
      associations := [("a2", "r1"), ("a1", "r3"), ("a1", "r1")] }
  clock := 0
  fetchCost := 0
  cancelAt := none
  sleeps := []
  events := []
  patience := 0

def mixedSpace : Orchestrator Nat := ⟨"org", some "s", ⟨1, 5⟩⟩

def mixedRecords : List RouteRecord :=
  [⟨"r1", "a", "", "own.test", "dev", ["api", "web"], none⟩,
    ⟨"r2", "b", "/v2", "", "dev", [], some "service"⟩,
    ⟨"r3", "c", "", "", "dev", ["web"], none⟩]

def mixedRequests : List Request :=
  [.listResources .organizationPrivateDomains [(.organizationId, "org")] 1,
    .listResources .sharedDomains [] 1,
    .listResources .organizationSpaces [(.organizationId, "org")] 1,
    .listResources .spaceRoutes [(.spaceId, "s")] 1,
    .listResources .routeApplications [(.routeId, "r1")] 1,
    .listResources .routeApplications [(.routeId, "r2")] 1,
    .listResources .spaceRoutes [(.spaceId, "s")] 2,
    .listResources .routeApplications [(.routeId, "r3")] 1]

theorem list_exact_mixed :
    0 < mixedWorld.platform.pageSize ∧
      (∀ a ∈ mixedWorld.platform.associations,
        mixedWorld.platform.applications.contains a.1 = true) ∧
      Ends (mixedSpace.list .space) mixedWorld (.ok mixedRecords)
        (mixedWorld.logged mixedRequests) := by
  have hpaged : 0 < mixedWorld.platform.pageSize := by decide
  have hknown : ∀ a ∈ mixedWorld.platform.associations,
      mixedWorld.platform.applications.contains a.1 = true := by decide
  have hgranted : ∀ q ∈ mixedSpace.listPlan mixedWorld.platform .space,
      mixedWorld.platform.denial q = none := by
    intro q _
    cases q <;> rfl
  have hrecords : (mixedSpace.levelRoutes mixedWorld.platform .space).map
      (mixedSpace.record mixedWorld.platform) = mixedRecords := by decide +kernel
  have hplan : mixedSpace.listPlan mixedWorld.platform .space = mixedRequests := by decide +kernel
  obtain ⟨-, hlist⟩ := list_exact mixedSpace .space hpaged hknown
  obtain ⟨hends, -⟩ := hlist (by decide)
  rw [hrecords, hplan] at hends
  refine ⟨hpaged, hknown, hends ?_⟩
  rwa [hplan] at hgranted

end Orchestrator

end PlatformRoutes
