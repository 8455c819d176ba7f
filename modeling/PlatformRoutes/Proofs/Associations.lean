import PlatformRoutes.Proofs.ExactDeletion
import PlatformRoutes.Proofs.ResolvedNames

namespace PlatformRoutes

namespace Store

variable {τ : Type} {pairs : List (String × String)} {pair : String × String}

/-- The pairs of applications and routes once one of them has been associated. -/
def associating (pairs : List (String × String)) (pair : String × String) :
    List (String × String) :=
  if pairs.contains pair then pairs else pairs ++ [pair]

theorem associating_of_mem (h : pair ∈ pairs) : associating pairs pair = pairs :=
  if_pos (List.contains_iff_mem.mpr h)

theorem associating_of_notMem (h : pair ∉ pairs) : associating pairs pair = pairs ++ [pair] :=
  if_neg (mt List.contains_iff_mem.mp h)

theorem mem_associating (pairs : List (String × String)) (pair : String × String) :
    pair ∈ associating pairs pair := by
  by_cases h : pair ∈ pairs
  · rwa [associating_of_mem h]
  · rw [associating_of_notMem h]
    exact List.mem_append_right pairs (List.mem_singleton_self pair)

theorem nodup_associating (h : pairs.Nodup) (pair : String × String) :
    (associating pairs pair).Nodup := by
  by_cases hmem : pair ∈ pairs
  · rwa [associating_of_mem hmem]
  · rw [associating_of_notMem hmem]
    exact h.append (List.nodup_singleton pair) (List.disjoint_singleton.mpr hmem)

/-- The other pairs keep their presence and their order. -/
theorem filter_associating (pairs : List (String × String)) (pair : String × String) :
    (associating pairs pair).filter (· != pair) = pairs.filter (· != pair) := by
  by_cases h : pair ∈ pairs
  · rw [associating_of_mem h]
  · rw [associating_of_notMem h, List.filter_append, List.filter_singleton, bne_self_eq_false]
    exact List.append_nil _

theorem filter_of_notMem (h : pair ∉ pairs) : pairs.filter (· != pair) = pairs := by
  rw [List.filter_eq_self]
  rintro a ha
  exact bne_iff_ne.mpr fun hpair => h (hpair ▸ ha)

theorem run_associateRoute_associating (applicationId routeId : String) (s : Store τ) :
    (associateRoute applicationId routeId).run s =
      (.ok (), { s with
        calls := s.calls ++ [.associateRoute applicationId routeId]
        associations := associating s.associations (applicationId, routeId) }) := by
  rw [run_associateRoute]
  unfold associating
  dsimp only
  split <;> rfl

theorem routesAt_put {s : Store τ} {r : Route} (hfree : s.routesAt r.key = []) :
    (s.routes.put r).items.filter (fun q => q.key == r.key) = [r] := by
  rw [Register.put, Register.filter_putInto_of_none hfree]
  exact List.filter_cons_of_pos (beq_self_eq_true r.key)

/-- A name that only one record has is known to stand for that record. -/
theorem learns_of_resolves {α : Type} {w : World (Store τ) τ} {x : Run (Store τ) τ α}
    {kind : ResourceKind} {name : String} {requests : List Request} {a : α}
    (h : w.Resolves x kind name [a] requests) :
    Learns x w (.ok a) := by
  obtain ⟨outcome, hdecides, hends⟩ := h
  rw [hdecides.only a rfl] at hends
  exact ⟨requests, hends⟩

/-- What an application's name stands for depends on the applications and on the failures set up
alone. -/
theorem resolveApplication_elsewhere {v w : World (Store τ) τ} {spaceId application : String}
    {app : Ref} (h : Learns (Run.resolveApplication spaceId application) w (.ok app))
    (hpaged : 0 < w.platform.pageSize) (hpaged' : 0 < v.platform.pageSize)
    (hsame : v.platform.applications = w.platform.applications)
    (hfailures : v.platform.listFailures = w.platform.listFailures) :
    Learns (Run.resolveApplication spaceId application) v (.ok app) := by
  obtain ⟨outcome, hsettled⟩ :=
    found_single_settled w.platform (.application spaceId application) .application application
  obtain ⟨requests, hends⟩ := h
  obtain rfl := (hsettled w hpaged rfl).unique hends
  refine hsettled v hpaged' ?_
  simp only [listing, failureOf?, select, hsame, hfailures]

end Store

namespace Orchestrator

open Store

variable {τ : Type} {o : Orchestrator τ} {v w : World (Store τ) τ} {application name : String}
  {app : Ref} {domain : Domain} {host path : Option String} {r : Route}

/-- Platforms that cannot be told apart by the names of applications and domains. -/
structure SameNames (s t : Store τ) : Prop where
  pageSize : t.pageSize = s.pageSize
  listFailures : t.listFailures = s.listFailures
  applications : t.applications = s.applications
  domains : t.domains = s.domains

/-- On a platform without failures, an orchestrator knows what an application's name in its space
and a domain's name stand for. The domain has an id, as every domain that is read or added has. -/
structure Aims (o : Orchestrator τ) (w : World (Store τ) τ) (application name : String) (app : Ref)
    (domain : Domain) : Prop where
  paged : 0 < w.platform.pageSize
  calm : w.platform.listFailures = []
  target : o.spaceId.getD "" ≠ ""
  knowsApp : Learns (Run.resolveApplication (o.spaceId.getD "") application) w (.ok app)
  knowsDomain : Learns (Run.resolveDomain o.organizationId name) w (.ok domain)
  named : domain.id ≠ ""

namespace Aims

variable (h : Aims o w application name app domain)
include h

theorem elsewhere (hsame : SameNames w.platform v.platform) :
    Aims o v application name app domain where
  paged := hsame.pageSize ▸ h.paged
  calm := hsame.listFailures.trans h.calm
  target := h.target
  knowsApp := resolveApplication_elsewhere h.knowsApp h.paged (hsame.pageSize ▸ h.paged)
    hsame.applications hsame.listFailures
  knowsDomain := resolveDomain_elsewhere h.knowsDomain h.paged (hsame.pageSize ▸ h.paged)
    hsame.domains hsame.listFailures
  named := h.named

theorem logged (requests : List Request) : Aims o (w.logged requests) application name app domain :=
  h.elsewhere ⟨rfl, rfl, rfl, rfl⟩

theorem stored : domain ∈ w.platform.domains.items := by
  obtain ⟨requests, enough, hrun⟩ := h.knowsDomain
  exact resolveDomain_stored (w := { w with patience := enough }) (hrun enough le_rfl)

theorem space_ends : Ends o.requireSpace w (.ok (o.spaceId.getD "")) w := by
  rw [requireSpace_of_target h.target]
  exact Ends.pure _ w

end Aims

/-- A world with exactly one route of a key, where names stand for what they did. A route that was
there already stays what it was. -/
structure Provides (w v : World (Store τ) τ) (key : RouteKey) (r : Route) : Prop where
  names : SameNames w.platform v.platform
  only : v.platform.routesAt key = [r]
  kept : ∀ q, w.platform.routesAt key = [q] → r = q ∧ v.platform.routes = w.platform.routes

theorem provided_ends (h : Aims o w application name app domain)
    (honly : (w.platform.routesAt (.of domain.id host path)).length ≤ 1) (spaceId : String) :
    ∃ r v, Ends (Run.resolveOrCreateRoute domain host path spaceId) w (.ok r) v ∧
      Provides w v (.of domain.id host path) r ∧
      v.platform.associations = w.platform.associations := by
  cases hroutes : w.platform.routesAt (.of domain.id host path) with
  | nil =>
    obtain ⟨requests, hfound⟩ := findRoute_learns h.paged h.calm domain host path none hroutes
    obtain ⟨r, hrun, hkey, -, -⟩ :=
      run_createRoute_free (s := (w.logged requests).platform) h.stored h.named hroutes spaceId
    have hends : Ends (Run.resolveOrCreateRoute domain host path spaceId) w (.ok r) _ :=
      hfound.bind (Ends.onPlatform hrun)
    refine ⟨r, _, hends, ⟨⟨rfl, rfl, rfl, rfl⟩, ?_, fun q hq => ?_⟩, rfl⟩
    · rw [← hkey] at hroutes ⊢
      exact routesAt_put hroutes
    · rw [hroutes] at hq
      cases hq
  | cons r rest =>
    obtain rfl : rest = [] := by
      rw [hroutes, List.length_cons] at honly
      exact List.eq_nil_of_length_eq_zero (by omega)
    obtain ⟨requests, hfound⟩ := findRoute_learns h.paged h.calm domain host path (some r) hroutes
    refine ⟨r, _, hfound.bind (Ends.pure r _), ⟨⟨rfl, rfl, rfl, rfl⟩, hroutes, fun q hq => ?_⟩, rfl⟩
    rw [hroutes] at hq
    exact ⟨(List.cons.inj hq).1, rfl⟩

/-- Mapping provides a route and associates the application with it. -/
theorem map_ends (h : Aims o w application name app domain)
    (honly : (w.platform.routesAt (.of domain.id host path)).length ≤ 1) :
    ∃ r v, Ends (o.map application name host path) w (.ok r) v ∧
      Provides w v (.of domain.id host path) r ∧
      v.platform.associations = associating w.platform.associations (app.id, r.id) := by
  obtain ⟨before, happ⟩ := h.knowsApp
  obtain ⟨later, hdomain⟩ := (h.logged before).knowsDomain
  obtain ⟨r, v, hprovided, hprovides, hassociations⟩ :=
    provided_ends ((h.logged before).logged later) honly (o.spaceId.getD "")
  have hassociated := Ends.onPlatform (w := v)
    (run_associateRoute_associating app.id r.id v.platform)
  have hends : Ends (o.map application name host path) w (.ok r) _ :=
    h.space_ends.bind (happ.bind (hdomain.bind (hprovided.bind
      (hassociated.bind ((Ends.emit _ _).bind (Ends.pure r _))))))
  have hnames := hprovides.names
  refine ⟨r, _, hends, ⟨⟨hnames.pageSize, hnames.listFailures, hnames.applications,
    hnames.domains⟩, hprovides.only, hprovides.kept⟩, ?_⟩
  exact congrArg (associating · (app.id, r.id)) hassociations

/-- Unmapping takes the pair out of the associations and leaves all else but the requests. -/
theorem unmap_ends (h : Aims o w application name app domain)
    (hone : w.platform.routesAt (.of domain.id host path) = [r]) :
    ∃ v, Ends (o.unmap application name host path) w (.ok ()) v ∧
      v.platform = { w.platform with
        calls := v.platform.calls
        associations := w.platform.associations.erase (app.id, r.id) } := by
  obtain ⟨before, happ⟩ := h.knowsApp
  obtain ⟨middle, hdomain⟩ := (h.logged before).knowsDomain
  have h' := (h.logged before).logged middle
  obtain ⟨later, hfound⟩ := resolveRoute_learns h'.paged h'.calm hone
  have hremoved : Ends (Run.onPlatform (Store.removeRoute app.id r.id))
      (((w.logged before).logged middle).logged later) (.ok ()) _ := Ends.onPlatform rfl
  have hends : Ends (o.unmap application name host path) w (.ok ()) _ :=
    h.space_ends.bind (happ.bind (hdomain.bind (hfound.bind (hremoved.bind (Ends.emit _ _)))))
  exact ⟨_, hends, rfl⟩

/-- Without a route there is nothing to unmap from. -/
theorem unmap_refused (h : Aims o w application name app domain)
    (hnone : w.platform.routesAt (.of domain.id host path) = []) :
    Learns (o.unmap application name host path) w
      (.error (.notFound .route (describeRoute domain.name host path))) := by
  obtain ⟨before, happ⟩ := h.knowsApp
  obtain ⟨middle, hdomain⟩ := (h.logged before).knowsDomain
  have h' := (h.logged before).logged middle
  obtain ⟨later, hfound⟩ := findRoute_learns h'.paged h'.calm domain host path none hnone
  have hrefused : Ends (Run.resolveRoute domain host path) ((w.logged before).logged middle)
      (.error (.notFound .route (describeRoute domain.name host path))) _ :=
    hfound.bind (Ends.throw _ _)
  have hends : Ends (o.unmap application name host path) w
      (.error (.notFound .route (describeRoute domain.name host path))) _ :=
    h.space_ends.bind (happ.bind (hdomain.bind hrefused.bind_error))
  rw [logged_logged, logged_logged] at hends
  exact ⟨_, hends⟩

/-- What can be said of a world once an application has been mapped to a route in it. The pair is
there, at the end if it is new. The host and the path may be spelled differently from then on, as
long as they mean the same route. -/
structure Mapped (o : Orchestrator τ) (w v : World (Store τ) τ) (application name : String)
    (key : RouteKey) (pair : String × String) (r : Route) : Prop where
  route : v.platform.routesAt key = [r]
  kept : ∀ q, w.platform.routesAt key = [q] → r = q ∧ v.platform.routes = w.platform.routes
  associated : v.platform.associations = associating w.platform.associations pair
  present : pair ∈ w.platform.associations → v.platform.associations = w.platform.associations
  others : v.platform.associations.filter (· != pair) = w.platform.associations.filter (· != pair)
  again : ∀ host path, .of key.domainId host path = key →
    ∃ t, Ends (o.map application name host path) v (.ok r) t ∧
      t.platform.routes = v.platform.routes ∧
      t.platform.associations = v.platform.associations
  undone : ∀ host path, .of key.domainId host path = key →
    ∃ t, Ends (o.unmap application name host path) v (.ok ()) t ∧
      t.platform.routes = v.platform.routes ∧
      t.platform.associations = w.platform.associations.filter (· != pair) ∧
      (pair ∉ w.platform.associations → t.platform.associations = w.platform.associations)

/-- What mapping has provided and associated, it maps. -/
theorem mapped_of_provided (h : Aims o w application name app domain)
    (hnodup : w.platform.associations.Nodup)
    (hprovides : Provides w v (.of domain.id host path) r)
    (hassociations :
      v.platform.associations = associating w.platform.associations (app.id, r.id)) :
    Mapped o w v application name (.of domain.id host path) (app.id, r.id) r where
  route := hprovides.only
  kept := hprovides.kept
  associated := hassociations
  present hmem := hassociations.trans (associating_of_mem hmem)
  others := by rw [hassociations, filter_associating]
  again host' path' hkey := by
    change RouteKey.of domain.id host' path' = _ at hkey
    have honly : v.platform.routesAt (.of domain.id host' path') = [r] := by
      rw [hkey]
      exact hprovides.only
    obtain ⟨q, t, hends, hagain, hsame⟩ :=
      map_ends (h.elsewhere hprovides.names) (by rw [honly]; exact le_rfl)
    obtain ⟨rfl, hroutes⟩ := hagain.kept r honly
    refine ⟨t, hends, hroutes, hsame.trans (associating_of_mem ?_)⟩
    rw [hassociations]
    exact mem_associating _ _
  undone host' path' hkey := by
    change RouteKey.of domain.id host' path' = _ at hkey
    have honly : v.platform.routesAt (.of domain.id host' path') = [r] := by
      rw [hkey]
      exact hprovides.only
    obtain ⟨t, hends, ht⟩ := unmap_ends (h.elsewhere hprovides.names) honly
    have hremoved : t.platform.associations =
        w.platform.associations.filter (· != (app.id, r.id)) := by
      rw [ht]
      dsimp only
      rw [hassociations, (nodup_associating hnodup _).erase_eq_filter, filter_associating]
    refine ⟨t, hends, by rw [ht], hremoved, fun habsent => ?_⟩
    rw [hremoved, filter_of_notMem habsent]

/-- Mapping and unmapping on a platform without failures and without a pair that is associated
twice, where the names are known and at most one route is meant. Mapping adds the pair at the end
or leaves it where it was; mapping again changes nothing, and unmapping takes just that pair away, so
that it gives back what was there if the pair is new. Unmapping from a route that the application
is not associated with changes nothing, and neither does unmapping from no route. -/
theorem map_unmap_laws (h : Aims o w application name app domain)
    (hnodup : w.platform.associations.Nodup)
    (honly : (w.platform.routesAt (.of domain.id host path)).length ≤ 1) :
    (∃ r v, Ends (o.map application name host path) w (.ok r) v ∧
      Mapped o w v application name (.of domain.id host path) (app.id, r.id) r) ∧
    (∀ r, w.platform.routesAt (.of domain.id host path) = [r] →
      ∃ v, Ends (o.unmap application name host path) w (.ok ()) v ∧
        v.platform = { w.platform with
          calls := v.platform.calls
          associations := w.platform.associations.filter (· != (app.id, r.id)) } ∧
        ((app.id, r.id) ∉ w.platform.associations →
          v.platform = { w.platform with calls := v.platform.calls })) ∧
    (w.platform.routesAt (.of domain.id host path) = [] →
      ∃ requests, Ends (o.unmap application name host path) w
        (.error (.notFound .route (describeRoute domain.name host path))) (w.logged requests)) := by
  refine ⟨?_, fun r hone => ?_, unmap_refused h⟩
  · obtain ⟨r, v, hends, hprovides, hassociations⟩ := map_ends h honly
    exact ⟨r, v, hends, mapped_of_provided h hnodup hprovides hassociations⟩
  · obtain ⟨v, hends, hv⟩ := unmap_ends h hone
    rw [hnodup.erase_eq_filter] at hv
    refine ⟨v, hends, hv, fun habsent => ?_⟩
    rwa [filter_of_notMem habsent] at hv

/-- Two routes on pages of one, and pairs of two applications. The second route has no pair of the
application `web`, and its host is a part of the first one's. -/
def sharedWorld : World (Store Nat) Nat where
  platform :=
    { pageSize := 1
      substringFilters := true
      nextId := 8
      domains := [⟨"d1", "apps.test", .shared, none⟩].foldl Register.put ∅
      applications := [⟨.of "a1" "web", "s"⟩, ⟨.of "a2" "web", "t"⟩].foldl Register.put ∅
      routes :=
        [⟨"route-5", "d1", "s", "api-v2", "/v1", none⟩,
          ⟨"route-6", "d1", "s", "api", "", none⟩].foldl Register.put ∅
      associations := [("a2", "route-5"), ("a1", "route-5"), ("a2", "route-6")] }
  clock := 0
  fetchCost := 0
  cancelAt := none
  sleeps := []
  events := []
  patience := 0

def sharedSpace : Orchestrator Nat := ⟨"org", some "s", ⟨1, 5⟩⟩

theorem sharedSpace_aims : Aims sharedSpace sharedWorld "web" "apps.test" (.of "a1" "web")
    ⟨"d1", "apps.test", .shared, none⟩ := by
  have hpaged : 0 < sharedWorld.platform.pageSize := by decide
  obtain ⟨requests, hdomain, -⟩ := resolves_domain hpaged rfl "org" "apps.test"
  exact ⟨hpaged, rfl, by decide,
    learns_of_resolves (resolves_found hpaged rfl (.application "s" "web") .application "web"),
    learns_of_resolves hdomain, by decide⟩

/-- The pair that is there is unmapped from between the others, and the one that is new is taken
back. -/
theorem map_unmap_laws_shared :
    Aims sharedSpace sharedWorld "web" "apps.test" (.of "a1" "web")
        ⟨"d1", "apps.test", .shared, none⟩ ∧
      sharedWorld.platform.associations.Nodup ∧
      (∃ r v t, Ends (sharedSpace.map "web" "apps.test" (some "api-v2") (some "v1")) sharedWorld
          (.ok r) v ∧ v.platform.associations = sharedWorld.platform.associations ∧
        Ends (sharedSpace.unmap "web" "apps.test" (some " api-v2") (some "/v1 ")) v (.ok ()) t ∧
        t.platform.associations = [("a2", "route-5"), ("a2", "route-6")]) ∧
      ∃ r v t, Ends (sharedSpace.map "web" "apps.test" (some "api") none) sharedWorld (.ok r) v ∧
        v.platform.associations = sharedWorld.platform.associations ++ [("a1", "route-6")] ∧
        Ends (sharedSpace.unmap "web" "apps.test" (some "api") (some " ")) v (.ok ()) t ∧
        t.platform.associations = sharedWorld.platform.associations := by
  have hnodup : sharedWorld.platform.associations.Nodup := by decide
  have hfirst : (sharedWorld.platform.routesAt
      (.of "d1" (some "api-v2") (some "v1"))).length ≤ 1 := by decide +kernel
  have hsecond : (sharedWorld.platform.routesAt (.of "d1" (some "api") none)).length ≤ 1 := by
    decide +kernel
  obtain ⟨⟨r, v, hmap, hmapped⟩, -⟩ := map_unmap_laws sharedSpace_aims hnodup hfirst
  obtain ⟨⟨r', v', hmap', hmapped'⟩, -⟩ := map_unmap_laws sharedSpace_aims hnodup hsecond
  obtain ⟨rfl, -⟩ := hmapped.kept ⟨"route-5", "d1", "s", "api-v2", "/v1", none⟩
    (by decide +kernel)
  obtain ⟨rfl, -⟩ := hmapped'.kept ⟨"route-6", "d1", "s", "api", "", none⟩ (by decide +kernel)
  obtain ⟨t, hunmap, -, ht, -⟩ := hmapped.undone (some " api-v2") (some "/v1 ") (by decide +kernel)
  obtain ⟨t', hunmap', -, -, hback⟩ := hmapped'.undone (some "api") (some " ") (by decide +kernel)
  exact ⟨sharedSpace_aims, hnodup, ⟨_, v, t, hmap, hmapped.present (by decide), hunmap, ht⟩,
    _, v', t', hmap', hmapped'.associated.trans (associating_of_notMem (by decide)), hunmap',
    hback (by decide)⟩

end Orchestrator

end PlatformRoutes
