import PlatformRoutes.Orchestrator
import PlatformRoutes.Proofs.Listing

namespace PlatformRoutes

/-- What a lookup asks a platform for. -/
inductive Query where
  | organization (name : String)
  | space (organizationId name : String)
  | application (spaceId name : String)
  | ownedDomain (organizationId name : String)
  | sharedDomain (name : String)
  | route (domain : Domain) (host path : Option String)

namespace Query

abbrev resource : Query → Resource
  | organization _ => .organizations
  | space _ _ => .organizationSpaces
  | application _ _ => .spaceApplications
  | ownedDomain _ _ => .organizationPrivateDomains
  | sharedDomain _ => .sharedDomains
  | route _ _ _ => .routes

def filters : Query → Filters
  | organization name => [(.name, name)]
  | space organizationId name => [(.name, name), (.organizationId, organizationId)]
  | application spaceId name => [(.name, name), (.spaceId, spaceId)]
  | ownedDomain organizationId name => [(.organizationId, organizationId), (.name, name)]
  | sharedDomain name => [(.name, name)]
  | route domain host path => Run.routeFilters domain host path

/-- Whether a record is one that the lookup is after, of all that a platform may let through. -/
def means : (q : Query) → q.resource.Item → Bool
  | organization name, r | space _ name, r | application _ name, r => Ref.name r == name
  | ownedDomain _ name, d | sharedDomain name, d => Domain.name d == name
  | route _ host path, r => Route.fits r host path

end Query

namespace Run

variable {σ τ : Type}

/-- The only route found, if there is one. -/
def onlyRoute (name : String) : List Route → Run σ τ (Option Route)
  | [] => return none
  | [r] => return some r
  | rs => throw (.ambiguous .route name rs.length)

variable [Platform σ τ]

/-- All records that a lookup is after, in the order in which they are listed. -/
def found (q : Query) : Run σ τ (List q.resource.Item) := do
  return (← listAll q.resource q.filters).filter q.means

theorem findRoute_eq_found (domain : Domain) (host path : Option String) :
    findRoute (σ := σ) domain host path =
      found (.route domain host path) >>= onlyRoute (describeRoute domain.name host path) := by
  rw [found, bind_assoc]
  exact bind_congr fun listed => (pure_bind _ _).symm

end Run

namespace Orchestrator

variable {σ τ : Type}

theorem requireSpace_of_target {o : Orchestrator τ} (target : o.spaceId.getD "" ≠ "") :
    o.requireSpace (σ := σ) = pure (o.spaceId.getD "") := by
  unfold requireSpace
  cases hspace : o.spaceId with
  | none => simp [hspace] at target
  | some id =>
    rw [hspace] at target
    have hempty : id.isEmpty = false := by simpa using target
    simp [hempty]

theorem requireSpace_of_none {o : Orchestrator τ} (untargeted : o.spaceId.getD "" = "") :
    o.requireSpace (σ := σ) = throw noSpace := by
  unfold requireSpace
  cases hspace : o.spaceId with
  | none => rfl
  | some id =>
    rw [hspace] at untargeted
    have hempty : id.isEmpty = true := by simpa using untargeted
    simp [hempty]

end Orchestrator

/-- A property of operations that doing them one after the other keeps. What an operation makes of
the world it may not choose by the platform, nor by what is going to be cancelled. -/
structure Chained {σ τ : Type} (P : ∀ {α : Type}, Run σ τ α → Prop) : Prop where
  pure : ∀ {α : Type} (a : α), P (pure a : Run σ τ α)
  throw : ∀ {α : Type} (f : Failure τ), P (throw f : Run σ τ α)
  bind : ∀ {α β : Type} {x : Run σ τ α} {f : α → Run σ τ β}, P x → (∀ a, P (f a)) → P (x >>= f)
  surroundings : ∀ {α : Type} {g : World σ τ → Run σ τ α},
    (∀ w s k, g { w with platform := s, cancelAt := k } = g w) → (∀ w, P (g w)) → P (get >>= g)

/-- A property of operations that composing them keeps, also where a failure is met. -/
structure Composed {σ τ : Type} (P : ∀ {α : Type}, Run σ τ α → Prop) : Prop
    extends Chained P where
  attempt : ∀ {α : Type} {x : Run σ τ α}, P x → P (attempt x)

/-- A property that each single lookup has as well. -/
structure Lookups {σ τ : Type} [Platform σ τ] (P : ∀ {α : Type}, Run σ τ α → Prop) : Prop
    extends Composed P where
  resolveOrganization : ∀ name, P (Run.resolveOrganization (σ := σ) name)
  resolveSpace : ∀ organizationId name, P (Run.resolveSpace (σ := σ) organizationId name)
  resolveApplication : ∀ spaceId name, P (Run.resolveApplication (σ := σ) spaceId name)
  resolveDomain : ∀ organizationId name, P (Run.resolveDomain (σ := σ) organizationId name)
  findRoute : ∀ domain host path, P (Run.findRoute (σ := σ) domain host path)

namespace Chained

variable {σ τ α β : Type} {P : ∀ {α : Type}, Run σ τ α → Prop}

theorem mapM (h : Chained P) {f : α → Run σ τ β} (hf : ∀ a, P (f a)) (l : List α) :
    P (l.mapM f) := by
  induction l with
  | nil => exact h.pure []
  | cons a l ih =>
    rw [List.mapM_cons]
    exact h.bind (hf a) fun b => h.bind ih fun bs => h.pure (b :: bs)

theorem foldlM (h : Chained P) {f : β → α → Run σ τ β} (hf : ∀ b a, P (f b a)) (l : List α)
    (b : β) : P (l.foldlM f b) := by
  induction l generalizing b with
  | nil => exact h.pure b
  | cons a l ih =>
    rw [List.foldlM_cons]
    exact h.bind (hf b a) ih

theorem traverse (h : Chained P) {fetch : Fetch (World σ τ) τ α} {handle : α → Run σ τ β}
    (hfetch : ∀ n, P (fetch n)) (hhandle : ∀ a, P (handle a)) (fuel n : Nat) :
    P (Paging.traverse fetch handle fuel n) := by
  induction fuel generalizing n with
  | zero => exact h.throw .stalled
  | succ fuel ih =>
    apply h.bind (hfetch n)
    intro p
    apply h.bind (h.mapM hhandle p.items)
    intro handled
    split
    · exact h.bind (ih (n + 1)) fun _ => h.pure _
    · exact h.pure handled

theorem pull (h : Chained P) {fetch : Fetch (World σ τ) τ α} (hfetch : ∀ n, P (fetch n)) :
    ∀ (fuel : Nat) (c : Cursor α), P (Cursor.pull fetch fuel c)
  | _, ⟨x :: rest, next⟩ => by
    rw [Cursor.pull]
    exact h.pure _
  | _, ⟨[], none⟩ => by
    rw [Cursor.pull]
    exact h.pure _
  | 0, ⟨[], some _⟩ => h.throw .stalled
  | fuel + 1, ⟨[], some n⟩ => h.bind (hfetch n) fun p => h.pull hfetch fuel (Cursor.ofPage p n)

theorem requireSpace (h : Chained P) (o : Orchestrator τ) : P (o.requireSpace (σ := σ)) := by
  unfold Orchestrator.requireSpace
  split
  · exact h.throw _
  · split
    · exact h.throw _
    · exact h.pure _

theorem single (h : Chained P) (kind : ResourceKind) (name : String) :
    ∀ found : List α, P (Run.single (σ := σ) (τ := τ) kind name found)
  | [] => h.throw _
  | [x] => h.pure x
  | _ :: _ :: _ => h.throw _

theorem onlyRoute (h : Chained P) (name : String) :
    ∀ found, P (Run.onlyRoute (σ := σ) (τ := τ) name found)
  | [] => h.pure none
  | [r] => h.pure (some r)
  | _ :: _ :: _ => h.throw _

variable [Platform σ τ]

theorem resolveRoute (h : Chained P) {domain : Domain} {host path : Option String}
    (found : P (Run.findRoute (σ := σ) domain host path)) :
    P (Run.resolveRoute (σ := σ) domain host path) := by
  refine h.bind found fun route => ?_
  cases route with
  | none => exact h.throw _
  | some route => exact h.pure route

section Names

variable (h : Chained P)
  (listed : ∀ resource filters, Filters.get? filters .host = none →
    Filters.get? filters .path = none → P (Run.listAll (σ := σ) resource filters))
include h listed

theorem directory (o : Orchestrator τ) : P (o.directory (σ := σ)) :=
  h.bind (listed _ _ rfl rfl) fun _ => h.bind (listed _ _ rfl rfl) fun _ =>
    h.bind (listed _ _ rfl rfl) fun _ => h.pure _

theorem join (names : Orchestrator.Directory) (route : Route) :
    P (Orchestrator.join (σ := σ) names route) :=
  h.bind (listed _ _ rfl rfl) fun _ => h.pure _

end Names

section Pages

variable (h : Chained P)
  (page : ∀ resource filters (n : Int), P (Run.listResources (σ := σ) resource filters n))
include h page

theorem listAll (resource : Resource) (filters : Filters) :
    P (Run.listAll (σ := σ) resource filters) :=
  h.surroundings (fun _ _ _ => rfl) fun w =>
    h.traverse (fun m => page resource filters m) h.pure w.patience 1

theorem listFirst (resource : Resource) (filters : Filters) :
    P (Run.listFirst (σ := σ) resource filters) :=
  h.surroundings (fun _ _ _ => rfl) fun w =>
    h.bind (h.pull (fun m => page resource filters m) w.patience .start) fun _ => h.pure _

theorem found (q : Query) : P (Run.found (σ := σ) q) :=
  h.bind (h.listAll page q.resource q.filters) fun _ => h.pure _

theorem resolveSpace (organizationId name : String) :
    P (Run.resolveSpace (σ := σ) organizationId name) :=
  h.bind (h.found page (.space organizationId name)) (h.single _ _)

theorem resolveDomain (organizationId name : String) :
    P (Run.resolveDomain (σ := σ) organizationId name) := by
  refine h.bind (h.found page (.ownedDomain organizationId name)) fun owned => ?_
  split
  · exact h.single _ _ owned
  · exact h.bind (h.found page (.sharedDomain name)) (h.single _ _)

theorem findRoute (domain : Domain) (host path : Option String) :
    P (Run.findRoute (σ := σ) domain host path) := by
  rw [Run.findRoute_eq_found]
  exact h.bind (h.found page (.route domain host path)) (h.onlyRoute _)

/-- What goes on with the pages of a level's routes. -/
theorem routed (o : Orchestrator τ) (level : Level) {g : Fetch (World σ τ) τ Route → Run σ τ β}
    (hg : ∀ fetch, (∀ n, P (fetch n)) → P (g fetch)) : P (o.routePages level >>= g) := by
  cases level with
  | organization =>
    rw [Orchestrator.routePages, pure_bind]
    exact hg _ fun n => page .routes _ n
  | space =>
    rw [Orchestrator.routePages, bind_assoc]
    refine h.bind (h.requireSpace o) fun spaceId => ?_
    rw [pure_bind]
    exact hg _ fun n => page .spaceRoutes _ n

theorem list (o : Orchestrator τ) (level : Level) : P (o.list (σ := σ) level) := by
  have listed (resource : Resource) (filters : Filters) (_ : filters.get? .host = none)
      (_ : filters.get? .path = none) : P (Run.listAll (σ := σ) resource filters) :=
    h.listAll page resource filters
  exact h.routed page o level fun fetch hfetch => h.bind (h.directory listed o) fun names =>
    h.surroundings (fun _ _ _ => rfl) fun w => h.traverse hfetch (h.join listed names) w.patience 1

/-- The records of a listing may be taken one by one as well. -/
theorem pullRecord (o : Orchestrator τ) (listing : Orchestrator.Listing) :
    P (listing.pull (σ := σ) o) := by
  have listed (resource : Resource) (filters : Filters) (_ : filters.get? .host = none)
      (_ : filters.get? .path = none) : P (Run.listAll (σ := σ) resource filters) :=
    h.listAll page resource filters
  have step (level : Level) (names : Orchestrator.Directory) (cursor : Cursor Route) :
      P (Orchestrator.Listing.pull.step (σ := σ) o level names cursor) := by
    refine h.routed page o level fun fetch hfetch => ?_
    refine h.surroundings (fun _ _ _ => rfl) fun w => ?_
    refine h.bind (h.pull hfetch w.patience cursor) fun found => ?_
    split
    · exact h.pure _
    · exact h.bind (h.join listed names _) fun _ => h.pure _
  cases listing with
  | done => exact h.pure _
  | fresh level =>
    exact h.routed page o level fun _ _ =>
      h.bind (h.directory listed o) fun names => step level names .start
  | joined level names cursor => exact step level names cursor

end Pages

end Chained

/-- A property that looking at a page has, every lookup has. -/
theorem Composed.lookups {σ τ : Type} [Platform σ τ] {P : ∀ {α : Type}, Run σ τ α → Prop}
    (h : Composed P)
    (page : ∀ resource filters (n : Int), P (Run.listResources (σ := σ) resource filters n)) :
    Lookups P where
  toComposed := h
  resolveOrganization name := h.bind (h.found page (.organization name)) (h.single _ _)
  resolveSpace := h.resolveSpace page
  resolveApplication spaceId name :=
    h.bind (h.found page (.application spaceId name)) (h.single _ _)
  resolveDomain := h.resolveDomain page
  findRoute := h.findRoute page

namespace Lookups

variable {σ τ : Type} [Platform σ τ] {P : ∀ {α : Type}, Run σ τ α → Prop} (h : Lookups P)
include h

theorem resolveRoute (domain : Domain) (host path : Option String) :
    P (Run.resolveRoute (σ := σ) domain host path) :=
  h.toChained.resolveRoute (h.findRoute domain host path)

theorem forNames (organization : String) (space : Option String) (poller : Poller τ) :
    P (Orchestrator.forNames (σ := σ) organization space poller) := by
  refine h.bind (h.resolveOrganization organization) fun org => ?_
  cases space with
  | none => exact h.pure _
  | some name =>
    dsimp only
    split
    · exact h.pure _
    · exact h.bind (h.resolveSpace org.id name) fun _ => h.pure _

theorem check (o : Orchestrator τ) (domain : String) (host path : Option String) :
    P (o.check (σ := σ) domain host path) := by
  refine h.bind (h.attempt (h.resolveDomain _ _)) fun resolved => ?_
  cases resolved with
  | error f =>
    dsimp only
    split
    · exact h.pure _
    · exact h.throw _
  | ok domain => exact h.bind (h.findRoute _ _ _) fun _ => h.pure _

end Lookups

/-- Whether a request only asks for a page of a listing. -/
def Request.isListing (q : Request) : Bool := q.resource?.isSome

namespace Store

variable {τ α β : Type} {x : Run (Store τ) τ α}

/-- An operation that only lists. It leaves nothing but its requests in the platform's record, and
what it comes to does not depend on the record. -/
def Looks (x : Run (Store τ) τ α) : Prop :=
  ∀ w : World (Store τ) τ, ∃ outcome requests, (∀ q ∈ requests, Request.isListing q = true) ∧
    ∀ before, x.run (w.logged before) = (outcome, w.logged (before ++ requests))

theorem Looks.run_listed (h : Looks x) (w : World (Store τ) τ) :
    ∃ requests, (∀ q ∈ requests, Request.isListing q = true) ∧ ∀ before,
      x.run (w.logged before) = ((x.run w).1, w.logged (before ++ requests)) := by
  obtain ⟨outcome, requests, hlisting, hrun⟩ := h w
  have hw := hrun []
  rw [logged_nil] at hw
  rw [hw]
  exact ⟨requests, hlisting, hrun⟩

theorem Looks.run (h : Looks x) (w : World (Store τ) τ) :
    ∃ requests, x.run w = ((x.run w).1, w.logged requests) := by
  obtain ⟨requests, -, hrun⟩ := h.run_listed w
  have hw := hrun []
  rw [logged_nil] at hw
  exact ⟨requests, hw⟩

theorem Looks.run_ok (h : Looks x) {w v : World (Store τ) τ} {a : α} (hrun : x.run w = (.ok a, v)) :
    ∃ requests, v = w.logged requests := by
  obtain ⟨requests, hw⟩ := h.run w
  rw [hrun] at hw
  exact ⟨requests, (Prod.mk.inj hw).2⟩

/-- Earlier requests do not change what an operation that only lists comes to. -/
theorem Looks.outcome_logged (h : Looks x) (w : World (Store τ) τ) (before : List Request) :
    (x.run (w.logged before)).1 = (x.run w).1 := by
  obtain ⟨requests, -, hrun⟩ := h.run_listed w
  rw [hrun before]

theorem looks_of_quiet (h : ∀ w : World (Store τ) τ, ∃ outcome, ∀ before,
    x.run (w.logged before) = (outcome, w.logged before)) : Looks x := by
  intro w
  obtain ⟨outcome, hrun⟩ := h w
  refine ⟨outcome, [], by simp, fun before => ?_⟩
  rw [hrun before, List.append_nil]

theorem Looks.bind {f : α → Run (Store τ) τ β} (hx : Looks x) (hf : ∀ a, Looks (f a)) :
    Looks (x >>= f) := by
  intro w
  obtain ⟨outcome, requests, hlisting, hrun⟩ := hx w
  cases outcome with
  | error e => exact ⟨.error e, requests, hlisting, fun before => run_bind_error (hrun before)⟩
  | ok a =>
    obtain ⟨outcome', requests', hlisting', hrun'⟩ := hf a w
    refine ⟨outcome', requests ++ requests', fun q hq => ?_, fun before => ?_⟩
    · exact (List.mem_append.mp hq).elim (hlisting q) (hlisting' q)
    · rw [run_bind_ok (hrun before), hrun', List.append_assoc]

/-- What operations that only list come to one after the other, each comes to by itself. -/
theorem Looks.outcome_bind {f : α → Run (Store τ) τ β} (hx : Looks x) (hf : ∀ a, Looks (f a))
    (w : World (Store τ) τ) :
    ((x >>= f).run w).1 = (x.run w).1 >>= fun a => ((f a).run w).1 := by
  obtain ⟨requests, hrun⟩ := hx.run w
  cases hr : (x.run w).1 with
  | error e =>
    rw [hr] at hrun
    rw [run_bind_error hrun]
    rfl
  | ok a =>
    rw [hr] at hrun
    rw [run_bind_ok hrun, (hf a).outcome_logged]
    rfl

theorem Looks.attempt (hx : Looks x) : Looks (attempt x) := by
  intro w
  obtain ⟨outcome, requests, hlisting, hrun⟩ := hx w
  refine ⟨.ok outcome, requests, hlisting, fun before => ?_⟩
  rw [run_attempt, hrun before]

theorem looks_composed : Composed (Looks (τ := τ)) where
  pure a := looks_of_quiet fun _ => ⟨.ok a, fun _ => rfl⟩
  throw f := looks_of_quiet fun _ => ⟨.error f, fun _ => rfl⟩
  bind := Looks.bind
  attempt := Looks.attempt
  surroundings free h w := by
    obtain ⟨outcome, requests, hlisting, hrun⟩ := h w w
    refine ⟨outcome, requests, hlisting, fun before => ?_⟩
    rw [run_bind_ok (x := get) (t := w.logged before) rfl]
    exact (congrArg (fun x : Run (Store _) _ _ => x.run (w.logged before)) (free w _ _)).trans
      (hrun before)

theorem looks_page (resource : Resource) (filters : Filters) (n : Int) :
    Looks (Run.listResources (σ := Store τ) resource filters n) := by
  intro w
  refine ⟨w.platform.listPage resource filters n, [.listResources resource filters n],
    by simp [Request.isListing, Request.resource?], fun before => ?_⟩
  rw [← logged_logged]
  cases resource <;> rfl

theorem looks_lookups : Lookups (Looks (τ := τ)) := looks_composed.lookups looks_page

end Store

end PlatformRoutes
