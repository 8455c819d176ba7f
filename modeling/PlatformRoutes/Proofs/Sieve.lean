import PlatformRoutes.Proofs.Agreement
import PlatformRoutes.Proofs.Matching

namespace PlatformRoutes

/-- What a platform lets through of its listings. All that a lookup is after passes. -/
structure Sieve where
  keeps : (resource : Resource) → Filters → resource.Item → Bool
  fair : ∀ (q : Query) (x : q.resource.Item), q.means x = true → keeps q.resource q.filters x = true

namespace Sieve

def sift {resource : Resource} (s : Sieve) (filters : Filters) (p : Page resource.Item) :
    Page resource.Item :=
  { p with items := p.items.filter (s.keeps resource filters) }

/-- Whether a listed record is one that is asked for. Only a lookup asks for the routes of a domain,
and one that sends no host or no path is after routes without. -/
def asksFor : (resource : Resource) → Filters → resource.Item → Bool
  | .organizations, filters, r | .organizationSpaces, filters, r
  | .spaceApplications, filters, r => Store.nameFits filters (Ref.name r)
  | .organizationPrivateDomains, filters, d
  | .sharedDomains, filters, d => Store.nameFits filters (Domain.name d)
  | .routes, filters, r => (filters.get? .domainId).isNone ||
    (Route.host r == (filters.get? .host).getD "" && Route.path r == (filters.get? .path).getD "")
  | .spaceRoutes, _, _ | .routeApplications, _, _ => true

theorem getD_filter (s : String) : ((some s).filter fun s => !s.isEmpty).getD "" = s := by
  rw [Option.filter_some]
  cases h : s.isEmpty with
  | true => exact (String.isEmpty_iff.mp h).symm
  | false => rfl

/-- Of the records of a listing, those that a lookup is after are the ones it asks for. -/
theorem asksFor_eq_means (q : Query) (x : q.resource.Item) :
    asksFor q.resource q.filters x = q.means x := by
  cases q with
  | route domain host path =>
    have hget := Store.get?_routeFilters domain host path
    change (((Run.routeFilters domain host path).get? .domainId).isNone ||
      (Route.host x == ((Run.routeFilters domain host path).get? .host).getD "" &&
        Route.path x == ((Run.routeFilters domain host path).get? .path).getD "")) =
      Route.fits x host path
    rw [hget, hget, hget]
    dsimp only
    rw [getD_filter, getD_filter]
    rfl
  | _ => rfl

/-- Lets all through. -/
def coarse : Sieve := ⟨fun _ _ _ => true, fun _ _ _ => rfl⟩

/-- Lets nothing through but what is asked for. -/
def exact : Sieve := ⟨asksFor, fun q x h => (asksFor_eq_means q x).trans h⟩

end Sieve

/-- A platform behind a sieve. -/
structure Sieved (σ : Type) where
  platform : σ
  sieve : Sieve

namespace Sieved

variable {σ τ α : Type}

def within (act : Act σ τ α) : Act (Sieved σ) τ α := fun s =>
  let (r, p) := act.run s.platform
  (r, { s with platform := p })

theorem run_within {act : Act σ τ α} {s : Sieved σ} {outcome : Except (Failure τ) α} {p : σ}
    (h : act.run s.platform = (outcome, p)) :
    (within act).run s = (outcome, { s with platform := p }) := by
  obtain ⟨rfl, rfl⟩ : (act.run s.platform).1 = outcome ∧ (act.run s.platform).2 = p :=
    Prod.mk.inj h
  rfl

instance [Platform σ τ] : Platform (Sieved σ) τ where
  listResources resource filters page := do
    let p ← within (Platform.listResources resource filters page)
    return (← get).sieve.sift filters p
  createRoute domainId spaceId host path :=
    within (Platform.createRoute domainId spaceId host path)
  deleteRoute routeId := within (Platform.deleteRoute routeId)
  getJob jobId := within (Platform.getJob jobId)
  associateRoute applicationId routeId := within (Platform.associateRoute applicationId routeId)
  removeRoute applicationId routeId := within (Platform.removeRoute applicationId routeId)

/-- Two sieves before one platform. -/
def Same (_room _patience : ℕ) (s t : Sieved σ) : Prop := s.platform = t.platform

theorem agrees_within (act : Act σ τ α) {room n : ℕ} (room' n' : ℕ) :
    Agrees (Same room n) (Same room' n') (within act) := by
  rintro ⟨p, k⟩ ⟨_, k'⟩ ⟨rfl⟩
  exact ⟨rfl, rfl⟩

section Found

variable [Platform σ τ]

theorem run_listResources {resource : Resource} {filters : Filters} {number : ℤ} {s : Sieved σ}
    {outcome : Except (Failure τ) (Page resource.Item)} {p : σ}
    (h : (Platform.listResources resource filters number).run s.platform = (outcome, p)) :
    (Platform.listResources resource filters number).run s =
      (outcome.map (s.sieve.sift filters), { s with platform := p }) := by
  have hwithin := run_within h
  cases outcome with
  | ok page => exact (run_bind_ok hwithin).trans rfl
  | error f => exact (run_bind_error hwithin).trans rfl

/-- What a lookup makes of a page: what it is after, and whether there is a next page. -/
def gist (q : Query) (p : Page q.resource.Item) : List q.resource.Item × Bool :=
  (p.items.filter q.means, p.hasNext)

theorem gist_sift (q : Query) (sieve : Sieve) (p : Page q.resource.Item) :
    gist q (sieve.sift q.filters p) = gist q p := by
  refine congrArg (fun items => (items, p.hasNext)) ?_
  rw [Sieve.sift, List.filter_filter]
  refine List.filter_congr fun x _ => ?_
  cases h : q.means x with
  | true => rw [sieve.fair q x h, Bool.and_true]
  | false => exact Bool.false_and _

/-- The pages of a lookup differ in nothing that it is after. -/
theorem agrees_page (q : Query) (number : ℕ) (room : ℕ) :
    Agrees (World.Beside (Same (σ := σ) room)) (World.Beside (Same room))
      (do return gist q (← Run.pagesOf q.resource q.filters number) : Run (Sieved σ) τ _) := by
  rintro w _ ⟨⟨_, sieve⟩, rfl, ⟨rfl⟩⟩
  cases hr : (Platform.listResources q.resource q.filters number).run w.platform.platform with
  | mk outcome p =>
    have hhere := run_onPlatform (run_listResources hr)
    have hthere := run_onPlatform (w := { w with platform := Sieved.mk w.platform.platform sieve })
      (run_listResources (s := Sieved.mk w.platform.platform sieve) hr)
    cases outcome with
    | ok page =>
      rw [Run.pagesOf, Run.listResources, run_bind_ok hhere, run_bind_ok hthere]
      refine ⟨congrArg Except.ok ?_, _, rfl, rfl⟩
      rw [gist_sift, gist_sift]
    | error f =>
      rw [Run.pagesOf, Run.listResources, run_bind_error hhere, run_bind_error hthere]
      exact ⟨rfl, _, rfl, rfl⟩

/-- What a lookup is after, of all pages from one on. -/
def sought (q : Query) (fuel number : ℕ) : Run (Sieved σ) τ (List q.resource.Item) := do
  return (← Paging.traverse (Run.pagesOf q.resource q.filters) pure fuel number).filter q.means

theorem sought_succ (q : Query) (fuel number : ℕ) :
    sought (σ := σ) q (fuel + 1) number = do
      let (kept, more) ← (do return gist q (← Run.pagesOf q.resource q.filters number))
      if more then return kept ++ (← sought q fuel (number + 1)) else return kept := by
  rw [sought, Paging.traverse, bind_assoc, bind_assoc]
  refine bind_congr fun p => ?_
  have hitems : p.items.mapM (pure : _ → Run (Sieved σ) τ _) = pure p.items := by
    simpa using List.mapM_pure (m := Act (World (Sieved σ) τ) τ) (f := id) (l := p.items)
  rw [hitems, pure_bind, pure_bind, gist]
  dsimp only
  split
  · simp only [sought, bind_assoc, pure_bind, List.filter_append]
  · rw [pure_bind]

theorem agrees_sought (q : Query) (room fuel number : ℕ) :
    Agrees (World.Beside (Same room)) (World.Beside (Same room))
      (sought (σ := σ) q fuel number) := by
  induction fuel generalizing number with
  | zero => exact fun _ _ h => ⟨rfl, h⟩
  | succ fuel ih =>
    rw [sought_succ]
    refine agrees_composed.bind (agrees_page q number room) fun found => ?_
    dsimp only
    split
    · exact agrees_composed.bind (ih (number + 1)) fun _ => agrees_composed.pure _
    · exact agrees_composed.pure _

theorem agrees_found (q : Query) (room : ℕ) :
    Agrees (World.Beside (Same (σ := σ) room)) (World.Beside (Same room))
      (Run.found q : Run (Sieved σ) τ _) := by
  rw [Run.found, Run.listAll, bind_assoc]
  refine Agrees.get_bind ?_ fun w => agrees_sought q room w.patience 1
  rintro w _ ⟨_, rfl, -⟩
  rfl

end Found

/-- Whatever a platform lists, letting through more or less of what lookups are not after makes no
difference to them. -/
theorem twins [Platform σ τ] : Twins (Same (σ := σ)) where
  narrow _ _ _ _ h := h
  found room q := agrees_composed.bind (agrees_found q room) fun _ => agrees_composed.pure _
  createRoute room n _ _ _ _ := agrees_within _ room n
  deleteRoute room n _ := agrees_within _ room n
  getJob room n _ := agrees_within _ room n
  associateRoute room n _ _ := agrees_within _ room n
  removeRoute room n _ _ := agrees_within _ room n

end Sieved

/-- A session on the same platform behind another sieve. -/
def Session.behind {σ τ : Type} (a : Session (Sieved σ) τ) (sieve : Sieve) : Session (Sieved σ) τ :=
  { a with world := { a.world with platform := { a.world.platform with sieve := sieve } } }

end PlatformRoutes
