import PlatformRoutes.Proofs.Existence

namespace PlatformRoutes

namespace Register

variable {α : Type} [Keyed α] {r : Register α} {a : α} {k : String} {p : α → Bool}

/-- The part of a register that a test lets through. -/
def only (r : Register α) (p : α → Bool) : Register α :=
  ⟨r.items.filter p, (List.filter_sublist.map _).nodup r.distinct⟩

theorem ext_items {r r' : Register α} (h : r.items = r'.items) : r = r' := by
  cases r
  cases r'
  congr

theorem find?_only (h : ∀ a ∈ r.items, Keyed.key a = k → p a = true) :
    (r.only p).find? k = r.find? k := by
  simp only [find?, only, List.find?_filter]
  refine List.find?_congr fun a ha => ?_
  by_cases hk : Keyed.key a = k
  · simp [hk, h a ha hk]
  · simp [hk]

theorem contains_only (h : ∀ a ∈ r.items, Keyed.key a = k → p a = true) :
    (r.only p).contains k = r.contains k := by
  rw [contains, contains, find?_only h]

/-- What is put past a test is put into the part that it lets through, in the same place. -/
theorem filter_putInto (ha : p a = true) : ∀ {l : List α},
    (∀ b ∈ l, Keyed.key b = Keyed.key a → p b = true) →
      (putInto a l).filter p = putInto a (l.filter p)
  | [], _ => by simp [putInto, ha]
  | b :: rest, h => by
    have hrest := filter_putInto ha fun c hc => h c (List.mem_cons_of_mem _ hc)
    by_cases hk : Keyed.key b = Keyed.key a
    · simp [putInto, hk, ha, h b List.mem_cons_self hk]
    · cases hb : p b <;> simp [putInto, hk, hb, hrest]

theorem only_put (ha : p a = true) (h : ∀ b ∈ r.items, Keyed.key b = Keyed.key a → p b = true) :
    (r.put a).only p = (r.only p).put a :=
  ext_items (filter_putInto ha h)

/-- A test that neither lets through what is put nor what that replaces does not notice it. -/
theorem filter_putInto_of_not (ha : p a = false) : ∀ {l : List α},
    (∀ b ∈ l, Keyed.key b = Keyed.key a → p b = false) → (putInto a l).filter p = l.filter p
  | [], _ => by simp [putInto, ha]
  | b :: rest, h => by
    have hrest := filter_putInto_of_not ha fun c hc => h c (List.mem_cons_of_mem _ hc)
    by_cases hk : Keyed.key b = Keyed.key a
    · simp [putInto, hk, ha, h b List.mem_cons_self hk]
    · cases hb : p b <;> simp [putInto, hk, hb, hrest]

theorem only_erase : (r.erase k).only p = (r.only p).erase k := by
  apply ext_items
  simp only [only, erase, List.filter_filter, Bool.and_comm]

end Register

/-- Whether a domain is private to another organization. -/
def Domain.isForeign (organizationId : String) (d : Domain) : Bool :=
  d.kind == .owned && d.owner != some organizationId

/-- What a platform holds on the private domains of other organizations: these domains, the routes
on them, the associations of these routes and the scripts of their deletions. -/
structure Foreign where
  domains : List Domain
  routes : List Route
  associations : List (String × String)
  scripts : List DeleteScript

namespace Foreign

def hasDomain (f : Foreign) (id : String) : Bool := f.domains.any fun d => d.id == id

def hasRoute (f : Foreign) (id : String) : Bool := f.routes.any fun r => r.id == id

variable {f : Foreign} {id : String}

theorem hasRoute_of_mem {r : Route} (h : r ∈ f.routes) : f.hasRoute r.id = true :=
  List.any_eq_true.mpr ⟨r, h, beq_self_eq_true _⟩

theorem mem_of_hasDomain (h : f.hasDomain id = true) : ∃ d ∈ f.domains, d.id = id := by
  obtain ⟨d, hd, hid⟩ := List.any_eq_true.mp h
  exact ⟨d, hd, eq_of_beq hid⟩

theorem mem_of_hasRoute (h : f.hasRoute id = true) : ∃ r ∈ f.routes, r.id = id := by
  obtain ⟨r, hr, hid⟩ := List.any_eq_true.mp h
  exact ⟨r, hr, eq_of_beq hid⟩

end Foreign

namespace Store

variable {τ : Type}

/-- The part of a platform that is foreign to an organization. -/
def foreign (s : Store τ) (organizationId : String) : Foreign :=
  let domains := s.domains.items.filter fun d => d.isForeign organizationId
  let routes := s.routes.items.filter fun r => domains.any fun d => d.id == r.domainId
  { domains
    routes
    associations := s.associations.filter fun a => routes.any fun r => r.id == a.2
    scripts := s.deleteScripts.items.filter fun d => routes.any fun r => r.id == d.routeId }

/-- A platform without a foreign part. -/
def without (s : Store τ) (f : Foreign) : Store τ :=
  { s with
    domains := s.domains.only fun d => !f.hasDomain d.id
    routes := s.routes.only fun r => !f.hasDomain r.domainId
    associations := s.associations.filter fun a => !f.hasRoute a.2
    deleteScripts := s.deleteScripts.only fun d => !f.hasRoute d.routeId }

/-- All of a platform but what is foreign to an organization. -/
def native (s : Store τ) (organizationId : String) : Store τ := s.without (s.foreign organizationId)

/-- A platform holds a foreign part, and its next number is beyond those of the routes there. -/
structure Holds (s : Store τ) (organizationId : String) (f : Foreign) : Prop where
  domains : s.domains.items.filter (fun d => d.isForeign organizationId) = f.domains
  routes : s.routes.items.filter (fun r => f.hasDomain r.domainId) = f.routes
  associations : s.associations.filter (fun a => f.hasRoute a.2) = f.associations
  scripts : s.deleteScripts.items.filter (fun d => f.hasRoute d.routeId) = f.scripts
  numbered : ∀ r ∈ f.routes, ∃ number < s.nextId, r.id = routeName number

namespace Holds

variable {s : Store τ} {organizationId : String} {f : Foreign}

theorem of_reachable (h : s.Reachable) (organizationId : String) :
    s.Holds organizationId (s.foreign organizationId) where
  domains := rfl
  routes := rfl
  associations := rfl
  scripts := rfl
  numbered r hr := h.sound.numbered r (List.mem_filter.mp hr).1

theorem foreign_eq (h : s.Holds organizationId f) : s.foreign organizationId = f := by
  have hroutes : s.routes.items.filter (fun r => f.domains.any fun d => d.id == r.domainId) =
    f.routes := h.routes
  have hassociations : s.associations.filter (fun a => f.routes.any fun r => r.id == a.2) =
    f.associations := h.associations
  have hscripts : s.deleteScripts.items.filter
    (fun d => f.routes.any fun r => r.id == d.routeId) = f.scripts := h.scripts
  simp only [foreign, h.domains, hroutes, hassociations, hscripts]

/-- A domain that is not foreign does not share its id with one that is. -/
theorem native_domain (h : s.Holds organizationId f) {d : Domain} (hd : d ∈ s.domains.items)
    (hnative : d.isForeign organizationId = false) : f.hasDomain d.id = false := by
  rw [Bool.eq_false_iff]
  intro hhas
  obtain ⟨e, he, hid⟩ := Foreign.mem_of_hasDomain hhas
  rw [← h.domains] at he
  obtain ⟨he, hforeign⟩ := List.mem_filter.mp he
  cases Register.eq_of_key he hd hid
  exact nomatch hnative.symm.trans hforeign

/-- Nor does a route on such a domain with a foreign one. -/
theorem native_route (h : s.Holds organizationId f) {r : Route} (hr : r ∈ s.routes.items)
    (hnative : f.hasDomain r.domainId = false) : f.hasRoute r.id = false := by
  rw [Bool.eq_false_iff]
  intro hhas
  obtain ⟨q, hq, hid⟩ := Foreign.mem_of_hasRoute hhas
  rw [← h.routes] at hq
  obtain ⟨hq, hforeign⟩ := List.mem_filter.mp hq
  cases Register.eq_of_key hq hr hid
  exact nomatch hnative.symm.trans hforeign

theorem asked (h : s.Holds organizationId f) (q : Request) :
    ({ s with calls := s.calls ++ [q] } : Store τ).Holds organizationId f :=
  ⟨h.domains, h.routes, h.associations, h.scripts, h.numbered⟩

theorem spent (h : s.Holds organizationId f) :
    ({ s with nextId := s.nextId + 1 } : Store τ).Holds organizationId f where
  domains := h.domains
  routes := h.routes
  associations := h.associations
  scripts := h.scripts
  numbered r hr := by
    obtain ⟨number, hlt, hid⟩ := h.numbered r hr
    exact ⟨number, Nat.lt_succ_of_lt hlt, hid⟩

/-- A new route is under no foreign route's id. -/
theorem fresh (h : s.Holds organizationId f) : f.hasRoute (routeName s.nextId) = false := by
  rw [Bool.eq_false_iff]
  intro hhas
  obtain ⟨r, hr, hid⟩ := Foreign.mem_of_hasRoute hhas
  obtain ⟨number, hlt, hnumber⟩ := h.numbered r hr
  have := routeName_injective (hnumber.symm.trans hid)
  omega

/-- A stored route of a foreign domain is a foreign one. -/
theorem foreign_route (h : s.Holds organizationId f) {r : Route} (hr : r ∈ s.routes.items)
    (hdomain : f.hasDomain r.domainId = true) : f.hasRoute r.id = true := by
  apply Foreign.hasRoute_of_mem
  rw [← h.routes]
  exact List.mem_filter.mpr ⟨hr, hdomain⟩

variable {r : Route}

/-- A route is put on a domain that is not foreign. -/
theorem putRoute (h : s.Holds organizationId f) (hdomain : f.hasDomain r.domainId = false)
    (hroute : f.hasRoute r.id = false) :
    ({ s with routes := s.routes.put r } : Store τ).Holds organizationId f ∧
      ({ s with routes := s.routes.put r } : Store τ).without f =
        { s.without f with routes := (s.without f).routes.put r } := by
  have hsame : ∀ q ∈ s.routes.items, q.id = r.id → f.hasDomain q.domainId = false := by
    intro q hq hid
    rw [Bool.eq_false_iff]
    intro hforeign
    have := h.foreign_route hq hforeign
    rw [hid, hroute] at this
    exact nomatch this
  refine ⟨⟨h.domains, ?_, h.associations, h.scripts, h.numbered⟩, ?_⟩
  · exact (Register.filter_putInto_of_not (p := fun q : Route => f.hasDomain q.domainId) hdomain hsame).trans
      h.routes
  · have hput : (s.routes.put r).only (fun q => !f.hasDomain q.domainId) =
        (s.routes.only fun q => !f.hasDomain q.domainId).put r :=
      Register.only_put (by simp [hdomain]) fun q hq hid => by simp [hsame q hq hid]
    simp only [without, hput]

variable {routeId : String}

/-- A route that is not foreign goes, with its associations. -/
theorem dropRoute (h : s.Holds organizationId f) (hroute : f.hasRoute routeId = false) :
    (s.dropRoute routeId).Holds organizationId f ∧
      (s.dropRoute routeId).without f = (s.without f).dropRoute routeId := by
  refine ⟨⟨h.domains, ?_, ?_, h.scripts, h.numbered⟩, ?_⟩
  · change (s.routes.items.filter fun r => r.id != routeId).filter _ = _
    rw [List.filter_comm, h.routes, List.filter_eq_self]
    intro r hr
    rw [bne_iff_ne]
    rintro rfl
    exact nomatch hroute.symm.trans (Foreign.hasRoute_of_mem hr)
  · change (s.associations.filter fun a => a.2 != routeId).filter _ = _
    rw [List.filter_comm, h.associations, List.filter_eq_self]
    intro a ha
    rw [bne_iff_ne]
    rintro rfl
    rw [← h.associations] at ha
    exact nomatch hroute.symm.trans (List.mem_filter.mp ha).2
  · simp only [without, Store.dropRoute, Register.only_erase]
    rw [List.filter_comm]

/-- The script of a route that is not foreign is used up. -/
theorem eraseScript (h : s.Holds organizationId f) (hroute : f.hasRoute routeId = false) :
    ({ s with deleteScripts := s.deleteScripts.erase routeId } : Store τ).Holds organizationId f := by
  refine ⟨h.domains, h.routes, h.associations, ?_, h.numbered⟩
  change (s.deleteScripts.items.filter fun d => d.routeId != routeId).filter _ = _
  rw [List.filter_comm, h.scripts, List.filter_eq_self]
  intro d hd
  rw [bne_iff_ne]
  rintro rfl
  rw [← h.scripts] at hd
  exact nomatch hroute.symm.trans (List.mem_filter.mp hd).2

end Holds

end Store

/-- A lookup that is after nothing foreign. -/
def Query.IsNative (organizationId : String) (f : Foreign) : Query → Prop
  | .ownedDomain owner _ => owner = organizationId
  | .route domain _ _ => f.hasDomain domain.id = false
  | _ => True

namespace Store

variable {τ : Type} {s : Store τ} {organizationId : String} {f : Foreign}

theorem filter_filter_of_imp {α : Type} {p q : α → Bool} {l : List α}
    (h : ∀ a ∈ l, q a = true → p a = true) : (l.filter p).filter q = l.filter q := by
  rw [List.filter_filter]
  refine List.filter_congr fun a ha => ?_
  cases hq : q a with
  | false => rfl
  | true => rw [h a ha hq, Bool.and_self]

theorem Holds.select_without (h : s.Holds organizationId f) {q : Query}
    (hq : q.IsNative organizationId f) :
    (s.without f).select q.resource q.filters = s.select q.resource q.filters := by
  cases q with
  | organization | space | application => rfl
  | ownedDomain owner name =>
    obtain rfl : owner = organizationId := hq
    refine congrArg Except.ok (filter_filter_of_imp fun d hd hfits => ?_)
    have hnative : d.isForeign owner = false := by
      simp only [Bool.and_eq_true] at hfits
      simp [Domain.isForeign, eq_of_beq hfits.1.2]
    simp [h.native_domain hd hnative]
  | sharedDomain name =>
    refine congrArg Except.ok (filter_filter_of_imp fun d hd hfits => ?_)
    have hnative : d.isForeign organizationId = false := by
      simp only [Bool.and_eq_true] at hfits
      simp [Domain.isForeign, eq_of_beq hfits.1]
    simp [h.native_domain hd hnative]
  | route domain host path =>
    refine congrArg Except.ok (filter_filter_of_imp fun r hr hfits => ?_)
    have hdomain : r.domainId = domain.id := by
      change (s.without f).routeFits (Run.routeFilters domain host path) r = true at hfits
      simp only [routeFits, Bool.and_eq_true] at hfits
      exact eq_of_beq hfits.1.1.1.1
    have hq : f.hasDomain domain.id = false := hq
    simp [hdomain, hq]

end Store

section Blind

variable {σ τ α β : Type} {hide : σ → σ} {I : σ → Prop} {J : Except (Failure τ) α → σ → Prop}
  {K : Except (Failure τ) β → σ → Prop} {x : Act σ τ α}

/-- From a state of which a part is hidden the action comes to the same as from the whole state, and
leaves the same but for that part. What holds of the whole state before and after is named. -/
def BlindBetween (hide : σ → σ) (I : σ → Prop) (J : Except (Failure τ) α → σ → Prop)
    (x : Act σ τ α) : Prop :=
  ∀ s, I s → x.run (hide s) = ((x.run s).1, hide (x.run s).2) ∧ J (x.run s).1 (x.run s).2

/-- A blind action that keeps what holds of the state. -/
abbrev Blind (hide : σ → σ) (I : σ → Prop) (x : Act σ τ α) : Prop :=
  BlindBetween hide I (fun _ => I) x

theorem BlindBetween.bind {f : α → Act σ τ β} (hx : BlindBetween hide I J x)
    (hf : ∀ a, BlindBetween hide (J (.ok a)) K (f a))
    (herror : ∀ e s, J (.error e) s → K (.error e) s) : BlindBetween hide I K (x >>= f) := by
  intro s hs
  obtain ⟨hrun, hJ⟩ := hx s hs
  cases hxs : x.run s with
  | mk outcome t =>
    rw [hxs] at hrun hJ
    cases outcome with
    | ok a =>
      rw [run_bind_ok hrun, run_bind_ok hxs]
      exact hf a t hJ
    | error e =>
      rw [run_bind_error hrun, run_bind_error hxs]
      exact ⟨rfl, herror e t hJ⟩

theorem BlindBetween.imp {I' : σ → Prop} {J' : Except (Failure τ) α → σ → Prop}
    (hx : BlindBetween hide I J x) (hI : ∀ s, I' s → I s) (hJ : ∀ r s, J r s → J' r s) :
    BlindBetween hide I' J' x :=
  fun s hs => ⟨(hx s (hI s hs)).1, hJ _ _ (hx s (hI s hs)).2⟩

/-- A blind action whose answers have a property. -/
abbrev BlindGiving (hide : σ → σ) (I : σ → Prop) (Q : α → Prop) (x : Act σ τ α) : Prop :=
  BlindBetween hide I (fun r s => I s ∧ ∀ a, r = .ok a → Q a) x

variable {Q : α → Prop}

theorem Blind.giving (hx : Blind hide I x)
    (hQ : ∀ s a t, I s → x.run s = (.ok a, t) → Q a) : BlindGiving hide I Q x := by
  intro s hs
  refine ⟨(hx s hs).1, (hx s hs).2, fun a ha => hQ s a (x.run s).2 hs ?_⟩
  rw [← ha]
  rfl

theorem BlindGiving.bind {f : α → Act σ τ β} (hx : BlindGiving hide I Q x)
    (hf : ∀ a, Q a → BlindBetween hide I K (f a)) (herror : ∀ e s, I s → K (.error e) s) :
    BlindBetween hide I K (x >>= f) :=
  BlindBetween.bind hx (fun a s hs => hf a (hs.2 a rfl) s hs.1) fun e s hs => herror e s hs.1

/-- What is known of the answers is known to what comes next. -/
theorem BlindGiving.then {f : α → Act σ τ β} (hx : BlindGiving hide I Q x)
    (hf : ∀ a, Q a → Blind hide I (f a)) : Blind hide I (x >>= f) :=
  hx.bind hf fun _ _ h => h

theorem BlindGiving.attempt (hx : BlindGiving hide I Q x) :
    BlindGiving hide I (fun r => ∀ a, r = .ok a → Q a) (attempt x) := by
  intro s hs
  obtain ⟨hrun, hI, hQ⟩ := hx s hs
  refine ⟨?_, hI, ?_⟩
  · rw [run_attempt, hrun]
    rfl
  · rintro r ⟨⟩ a ha
    exact hQ a ha

end Blind

section Hiding

variable {τ α : Type} {f : Foreign} {I : Store τ → Prop} {J : Except (Failure τ) α → Store τ → Prop}

def World.without (w : World (Store τ) τ) (f : Foreign) : World (Store τ) τ :=
  { w with platform := w.platform.without f }

/-- An operation that does not notice what is hidden. -/
abbrev Oblivious (f : Foreign) (I : Store τ → Prop) (x : Run (Store τ) τ α) : Prop :=
  Blind (World.without · f) (fun w => I w.platform) x

theorem blind_onPlatform {act : Act (Store τ) τ α} (h : BlindBetween (Store.without · f) I J act) :
    BlindBetween (World.without · f) (fun w => I w.platform) (fun r w => J r w.platform)
      (Run.onPlatform act) := by
  intro w hw
  obtain ⟨hrun, hJ⟩ := h w.platform hw
  exact ⟨run_onPlatform hrun, hJ⟩

theorem oblivious_composed : Composed fun {α} => Oblivious (α := α) f I where
  pure _ _ h := ⟨rfl, h⟩
  throw _ _ h := ⟨rfl, h⟩
  bind hx hf := hx.bind hf fun _ _ h => h
  attempt hx w h := by
    obtain ⟨hrun, hI⟩ := hx w h
    refine ⟨?_, hI⟩
    rw [run_attempt, hrun]
    rfl
  surroundings free hg w h := by
    obtain ⟨hrun, hI⟩ := hg w w h
    refine ⟨?_, hI⟩
    rw [run_bind_ok (x := get) (t := w.without f) rfl]
    exact (congrArg (fun x : Run (Store τ) τ _ => x.run (w.without f)) (free w _ _)).trans hrun

theorem oblivious_emit (event : Event) : Oblivious f I (Run.emit event) := fun _ h => ⟨rfl, h⟩

theorem oblivious_sleep [Add τ] (duration : τ) : Oblivious f I (Run.sleep duration) := by
  intro w h
  change (Run.sleep duration).run (w.without f) = _ ∧ _
  rw [run_sleep_cases, run_sleep_cases]
  change (if w.cancelAt = some (w.sleeps.length + 1) then _ else _) = _ ∧ _
  split <;> exact ⟨rfl, h⟩

end Hiding

namespace Store

variable {τ : Type} {s : Store τ} {organizationId routeId : String} {f : Foreign}

theorem Holds.listPage_without (h : s.Holds organizationId f) {q : Query}
    (hq : q.IsNative organizationId f) (n : Int) :
    (s.without f).listPage q.resource q.filters n = s.listPage q.resource q.filters n := by
  unfold listPage
  rw [h.select_without hq]
  rfl

/-- A route is created on a domain that is not foreign, under an id that is not foreign either. -/
theorem blind_createRoute {domainId : String} (hdomain : f.hasDomain domainId = false)
    (spaceId : String) (host path : Option String) :
    BlindBetween (Store.without (τ := τ) · f) (Holds · organizationId f)
      (fun r s => s.Holds organizationId f ∧ ∀ route, r = .ok route → f.hasRoute route.id = false)
      (createRoute domainId spaceId host path) := by
  intro s h
  have hcontains : (s.without f).domains.contains domainId = s.domains.contains domainId := by
    refine Register.contains_only fun d _ hid => ?_
    rw [show d.id = domainId from hid, hdomain, Bool.not_false]
  have htaken : ((s.without f).routes.items.any fun r => r.key == .of domainId host path) =
      s.routes.items.any fun r => r.key == .of domainId host path := by
    change (s.routes.items.filter _).any _ = _
    rw [List.any_filter]
    congr
    funext r
    cases hkey : r.key == .of domainId host path with
    | false => rw [Bool.and_false]
    | true =>
      have hid : r.domainId = domainId := congrArg RouteKey.domainId (eq_of_beq hkey)
      rw [hid, hdomain]
      rfl
  have hasked := h.asked (.createRoute domainId spaceId host path)
  rw [run_createRoute, run_createRoute]
  dsimp only
  rw [hcontains, htaken]
  split
  · exact ⟨rfl, hasked, nofun⟩
  · split
    · exact ⟨rfl, hasked, nofun⟩
    · rw [run_addRoute, run_addRoute]
      split
      · exact ⟨rfl, hasked.spent, nofun⟩
      · obtain ⟨hholds, hwithout⟩ := hasked.spent.putRoute
          (r := s.newRoute domainId spaceId host path none) hdomain h.fresh
        refine ⟨Prod.ext rfl hwithout.symm, hholds, ?_⟩
        rintro route ⟨⟩
        exact h.fresh

/-- A job does not take a foreign route away. -/
def Spares (jobId : String) (f : Foreign) (s : Store τ) : Prop :=
  ∀ track, s.jobs.find? jobId = some track → ∀ routeId, track.route = some routeId →
    f.hasRoute routeId = false

/-- The deletion of a route that is not foreign is left to a job that takes nothing foreign away. -/
theorem blind_deleteRoute (hroute : f.hasRoute routeId = false) :
    BlindBetween (Store.without (τ := τ) · f) (Holds · organizationId f)
      (fun r s => s.Holds organizationId f ∧ ∀ job, r = .ok job → s.Spares job.id f)
      (deleteRoute routeId) := by
  intro s h
  have hcontains : (s.without f).routes.contains routeId = s.routes.contains routeId := by
    refine Register.contains_only fun r hr hid => ?_
    rw [Bool.not_eq_true', Bool.eq_false_iff]
    intro hforeign
    have := h.foreign_route hr hforeign
    rw [show r.id = routeId from hid, hroute] at this
    exact nomatch this
  cases hstored : s.routes.contains routeId with
  | false =>
    rw [run_deleteRoute_unknown hstored, run_deleteRoute_unknown (hcontains.trans hstored)]
    exact ⟨rfl, h.asked _, nofun⟩
  | true =>
    have htrack (jobId : String) :
        (s.without f).deleteTrack jobId routeId = s.deleteTrack jobId routeId := by
      have hscript : (s.without f).deleteScripts.find? routeId = s.deleteScripts.find? routeId := by
        refine Register.find?_only fun d _ hid => ?_
        rw [show d.routeId = routeId from hid, hroute, Bool.not_false]
      rw [deleteTrack, deleteTrack, hscript]
    have hdeleting : (s.without f).deleting routeId = (s.deleting routeId).without f := by
      unfold deleting
      rw [htrack]
      simp only [without, Register.only_erase]
    have hkept := (h.asked (.deleteRoute routeId)).spent.eraseScript hroute
    rw [run_deleteRoute hstored, run_deleteRoute (hcontains.trans hstored), hdeleting]
    refine ⟨rfl, ⟨hkept.domains, hkept.routes, hkept.associations, hkept.scripts, hkept.numbered⟩,
      ?_⟩
    rintro job ⟨⟩ track htracked id hid
    rw [find?_deleting] at htracked
    cases htracked
    rw [deleteTrack_route] at hid
    cases hid
    exact hroute

/-- A look at a job that spares the foreign routes. -/
theorem Holds.look (h : s.Holds organizationId f) {track : JobTrack}
    (hspares : ∀ routeId, track.route = some routeId → f.hasRoute routeId = false) :
    (s.look track).Holds organizationId f ∧
      (s.look track).without f = (s.without f).look track := by
  by_cases hfinished : track.current.status = .finished
  · cases hroute : track.route with
    | none =>
      rw [look_idle hfinished hroute, look_idle hfinished hroute]
      exact ⟨⟨h.domains, h.routes, h.associations, h.scripts, h.numbered⟩, rfl⟩
    | some routeId =>
      rw [look_dropping hfinished hroute, look_dropping hfinished hroute]
      have hmoved : ({ s with jobs := s.jobs.put { track.advance with route := none } } :
          Store τ).Holds organizationId f :=
        ⟨h.domains, h.routes, h.associations, h.scripts, h.numbered⟩
      exact hmoved.dropRoute (hspares routeId hroute)
  · rw [look_pending hfinished, look_pending hfinished]
    exact ⟨⟨h.domains, h.routes, h.associations, h.scripts, h.numbered⟩, rfl⟩

/-- A job that has been looked at names its route still, or none. -/
theorem Spares.look {track : JobTrack} (h : s.Spares track.id f)
    (htrack : s.jobs.find? track.id = some track) : (s.look track).Spares track.id f := by
  obtain ⟨moved, hid, hroute, hjobs⟩ := s.look_jobs track
  intro found hfound routeId hnamed
  rw [hjobs, Register.find?_put, if_pos (show Keyed.key moved = track.id from hid)] at hfound
  cases hfound
  refine h track htrack routeId ?_
  rw [hroute] at hnamed
  split at hnamed
  · exact nomatch hnamed
  · exact hnamed

theorem blind_getJob (jobId : String) :
    Blind (Store.without (τ := τ) · f) (fun s => s.Holds organizationId f ∧ s.Spares jobId f)
      (getJob jobId) := by
  rintro s ⟨h, hspares⟩
  cases hjob : s.jobs.find? jobId with
  | none =>
    rw [run_getJob_unknown hjob, run_getJob_unknown (s := s.without f) hjob]
    exact ⟨rfl, h.asked _, hspares⟩
  | some track =>
    obtain rfl : track.id = jobId := (Register.find?_eq_some_iff.mp hjob).2
    obtain ⟨hkept, hwithout⟩ := (h.asked (.getJob track.id)).look (hspares track hjob)
    rw [run_getJob hjob, run_getJob (s := s.without f) hjob]
    exact ⟨Prod.ext rfl hwithout.symm, hkept, Spares.look hspares hjob⟩

theorem blind_associateRoute (applicationId : String) (hroute : f.hasRoute routeId = false) :
    Blind (Store.without (τ := τ) · f) (Holds · organizationId f)
      (associateRoute applicationId routeId) := by
  intro s h
  have hcontains : (s.without f).associations.contains (applicationId, routeId) =
      s.associations.contains (applicationId, routeId) := by
    rw [Bool.eq_iff_iff, List.contains_iff_mem, List.contains_iff_mem]
    simp [without, hroute]
  have hasked := h.asked (.associateRoute applicationId routeId)
  rw [run_associateRoute, run_associateRoute]
  dsimp only
  rw [hcontains]
  split
  · exact ⟨rfl, hasked⟩
  · refine ⟨Prod.ext rfl ?_, ⟨h.domains, h.routes, ?_, h.scripts, h.numbered⟩⟩
    · simp [without, hroute]
    · simp [hroute, h.associations]

theorem blind_removeRoute (applicationId : String) (hroute : f.hasRoute routeId = false) :
    Blind (Store.without (τ := τ) · f) (Holds · organizationId f)
      (removeRoute applicationId routeId) := by
  intro s h
  refine ⟨Prod.ext rfl ?_, ⟨h.domains, h.routes, ?_, h.scripts, h.numbered⟩⟩
  · change ({ s.without f with calls := _, associations := (s.without f).associations.erase _ } :
      Store τ) = _
    simp only [without, List.erase_filter]
    rfl
  · change (s.associations.erase (applicationId, routeId)).filter _ = _
    rw [← List.erase_filter, h.associations, List.erase_of_not_mem]
    intro hmem
    rw [← h.associations] at hmem
    exact nomatch hroute.symm.trans (List.mem_filter.mp hmem).2

end Store

section Operations

variable {τ : Type} {organizationId : String} {f : Foreign} {w v : World (Store τ) τ}

open Store (Holds)

theorem oblivious_found {q : Query} (hq : q.IsNative organizationId f) :
    Oblivious (τ := τ) f (Holds · organizationId f) (Run.found q) := by
  have hpage (n : ℕ) : Oblivious (τ := τ) f (Holds · organizationId f)
      (Run.pagesOf q.resource q.filters n) := by
    intro w h
    change (Run.pagesOf q.resource q.filters n).run (w.without f) = _ ∧ _
    rw [Store.run_page, Store.run_page]
    exact ⟨Prod.ext (h.listPage_without hq n) rfl, h.asked _⟩
  have hall : Oblivious (τ := τ) f (Holds · organizationId f) (Run.listAll q.resource q.filters) :=
    oblivious_composed.surroundings (fun _ _ _ => rfl) fun w =>
      oblivious_composed.traverse hpage oblivious_composed.pure w.patience 1
  exact oblivious_composed.bind hall fun _ => oblivious_composed.pure _

theorem oblivious_resolveSpace (name : String) :
    Oblivious (τ := τ) f (Holds · organizationId f) (Run.resolveSpace organizationId name) :=
  oblivious_composed.bind (oblivious_found (q := .space organizationId name) trivial)
    (oblivious_composed.single _ _)

theorem oblivious_resolveApplication (spaceId name : String) :
    Oblivious (τ := τ) f (Holds · organizationId f) (Run.resolveApplication spaceId name) :=
  oblivious_composed.bind (oblivious_found (q := .application spaceId name) trivial)
    (oblivious_composed.single _ _)

/-- A name of a domain resolves to one that is not foreign. -/
theorem blind_resolveDomain (name : String) :
    BlindGiving (World.without (τ := τ) · f) (fun w => w.platform.Holds organizationId f)
      (fun d => f.hasDomain d.id = false) (Run.resolveDomain organizationId name) := by
  have hblind : Oblivious (τ := τ) f (Holds · organizationId f)
      (Run.resolveDomain organizationId name) := by
    refine oblivious_composed.bind (oblivious_found (q := .ownedDomain organizationId name) rfl)
      fun owned => ?_
    split
    · exact oblivious_composed.single _ _ _
    · exact oblivious_composed.bind (oblivious_found (q := .sharedDomain name) trivial)
        (oblivious_composed.single _ _)
  refine hblind.giving fun w d v h hrun => ?_
  obtain ⟨hstored, hown⟩ := Store.resolveDomain_selected hrun
  refine h.native_domain hstored ?_
  rcases hown with hown | hown <;> simp [Domain.isForeign, hown]

variable {domain : Domain}

/-- A route that is found on a domain that is not foreign is none that is. -/
theorem blind_findRoute (hdomain : f.hasDomain domain.id = false) (host path : Option String) :
    BlindGiving (World.without (τ := τ) · f) (fun w => w.platform.Holds organizationId f)
      (fun found => ∀ r ∈ found, f.hasRoute r.id = false) (Run.findRoute domain host path) := by
  have hblind : Oblivious (τ := τ) f (Holds · organizationId f) (Run.findRoute domain host path) := by
    rw [Run.findRoute_eq_found]
    exact oblivious_composed.bind (oblivious_found (q := .route domain host path) hdomain)
      (oblivious_composed.onlyRoute _)
  refine hblind.giving fun w found v h hrun r hr => ?_
  cases hr
  obtain ⟨hstored, hkey⟩ := Store.findRoute_ok hrun
  have hid : r.domainId = domain.id := congrArg RouteKey.domainId hkey
  exact h.native_route hstored (hid ▸ hdomain)

theorem blind_resolveRoute (hdomain : f.hasDomain domain.id = false) (host path : Option String) :
    BlindGiving (World.without (τ := τ) · f) (fun w => w.platform.Holds organizationId f)
      (fun r => f.hasRoute r.id = false) (Run.resolveRoute domain host path) := by
  refine (blind_findRoute hdomain host path).bind (fun found hfound => ?_) fun e w h => ⟨h, nofun⟩
  cases found with
  | none => exact fun w h => ⟨rfl, h, nofun⟩
  | some r =>
    refine fun w h => ⟨rfl, h, ?_⟩
    rintro _ ⟨⟩
    exact hfound r rfl

theorem blind_resolveOrCreateRoute (hdomain : f.hasDomain domain.id = false)
    (host path : Option String) (spaceId : String) :
    BlindGiving (World.without (τ := τ) · f) (fun w => w.platform.Holds organizationId f)
      (fun r => f.hasRoute r.id = false) (Run.resolveOrCreateRoute domain host path spaceId) := by
  refine (blind_findRoute hdomain host path).bind (fun found hfound => ?_) fun e w h => ⟨h, nofun⟩
  cases found with
  | none => exact blind_onPlatform (Store.blind_createRoute hdomain _ _ _)
  | some r =>
    refine fun w h => ⟨rfl, h, ?_⟩
    rintro _ ⟨⟩
    exact hfound r rfl

variable (o : Orchestrator τ)

theorem oblivious_check (domain : String) (host path : Option String) :
    Oblivious f (Holds · o.organizationId f) (o.check domain host path) := by
  have h := oblivious_composed (f := f) (I := (Holds (τ := τ) · o.organizationId f))
  refine (blind_resolveDomain domain).attempt.then fun resolved hresolved => ?_
  cases resolved with
  | error e =>
    dsimp only
    split
    · exact h.pure _
    · exact h.throw _
  | ok d => exact (blind_findRoute (hresolved d rfl) host path).then fun _ _ => h.pure _

theorem oblivious_create (domain space : String) (host path : Option String) :
    Oblivious f (Holds · o.organizationId f) (o.create domain space host path) := by
  have h := oblivious_composed (f := f) (I := (Holds (τ := τ) · o.organizationId f))
  refine h.bind (oblivious_resolveSpace space) fun spaceRef => ?_
  refine (blind_resolveDomain domain).then fun d hd => ?_
  refine (blind_resolveOrCreateRoute hd host path spaceRef.id).then fun r _ => ?_
  exact h.bind (oblivious_emit _) fun _ => h.pure r

theorem oblivious_map (application domain : String) (host path : Option String) :
    Oblivious f (Holds · o.organizationId f) (o.map application domain host path) := by
  have h := oblivious_composed (f := f) (I := (Holds (τ := τ) · o.organizationId f))
  refine h.bind (h.requireSpace o) fun spaceId => ?_
  refine h.bind (oblivious_resolveApplication spaceId application) fun app => ?_
  refine (blind_resolveDomain domain).then fun d hd => ?_
  refine (blind_resolveOrCreateRoute hd host path spaceId).then fun r hr => ?_
  refine h.bind (blind_onPlatform (Store.blind_associateRoute app.id hr)) fun _ => ?_
  exact h.bind (oblivious_emit _) fun _ => h.pure r

theorem oblivious_unmap (application domain : String) (host path : Option String) :
    Oblivious f (Holds · o.organizationId f) (o.unmap application domain host path) := by
  have h := oblivious_composed (f := f) (I := (Holds (τ := τ) · o.organizationId f))
  refine h.bind (h.requireSpace o) fun spaceId => ?_
  refine h.bind (oblivious_resolveApplication spaceId application) fun app => ?_
  refine (blind_resolveDomain domain).then fun d hd => ?_
  refine (blind_resolveRoute hd host path).then fun r hr => ?_
  exact h.bind (blind_onPlatform (Store.blind_removeRoute app.id hr)) fun _ => oblivious_emit _

theorem oblivious_getJob [Add τ] (jobId : String) :
    Oblivious f (fun s : Store τ => s.Holds organizationId f ∧ s.Spares jobId f)
      (Run.getJob jobId) :=
  oblivious_composed.bind (x := modify _) (fun _ h => ⟨rfl, h⟩) fun _ =>
    blind_onPlatform (Store.blind_getJob jobId)

variable [Add τ] [Sub τ] [OfNat τ 0] [LE τ] [LT τ] [DecidableLE τ] [DecidableLT τ]

theorem oblivious_deleteRoute {r : Route} (hr : f.hasRoute r.id = false) :
    Oblivious f (Holds · organizationId f) (o.deleteRoute r) := by
  refine (blind_onPlatform (Store.blind_deleteRoute hr)).bind (fun job => ?_) fun _ _ h => h.1
  have hwait : Oblivious f (fun s : Store τ => s.Holds organizationId f ∧ s.Spares job.id f)
      (do let _ ← o.poller.awaitJob job; Run.emit (.onRoute "route.deleted" r)) :=
    oblivious_composed.bind (oblivious_composed.awaitJob (fun event _ => oblivious_emit event)
      oblivious_sleep o.poller (oblivious_getJob job.id)) fun _ => oblivious_emit _
  exact hwait.imp (fun w h => ⟨h.1, h.2 job rfl⟩) fun _ _ h => h.1

theorem oblivious_delete (domain : String) (host path : Option String) :
    Oblivious f (Holds · o.organizationId f) (o.delete domain host path) := by
  refine (blind_resolveDomain domain).then fun d hd => ?_
  exact (blind_resolveRoute hd host path).then fun r hr => oblivious_deleteRoute o hr

/-- The work that is about one route of a domain. -/
def RouteWork.isOnDomain : RouteWork → Bool
  | .check _ _ _ | .create _ _ _ _ | .map _ _ _ _ | .unmap _ _ _ _ | .delete _ _ _ => true
  | .list _ | .deleteOrphaned => false

theorem oblivious_perform {work : RouteWork} (hwork : work.isOnDomain = true) :
    Oblivious f (Holds · o.organizationId f) (o.perform work) := by
  cases work with
  | check domain host path =>
    exact oblivious_composed.bind (oblivious_check o _ _ _) fun _ => oblivious_composed.pure _
  | create domain space host path =>
    exact oblivious_composed.bind (oblivious_create o _ _ _ _) fun _ => oblivious_composed.pure _
  | map application domain host path =>
    exact oblivious_composed.bind (oblivious_map o _ _ _ _) fun _ => oblivious_composed.pure _
  | unmap application domain host path =>
    exact oblivious_composed.bind (oblivious_unmap o _ _ _ _) fun _ => oblivious_composed.pure _
  | delete domain host path =>
    exact oblivious_composed.bind (oblivious_delete o _ _ _) fun _ => oblivious_composed.pure _
  | list | deleteOrphaned => cases hwork

/-- The private domains of other organizations cannot be seen: on two platforms that differ in
nothing else than these, the routes on them, and the associations and deletion scripts of these
routes, each work on a route comes to the same, and does the same to all the rest of the world. What
is foreign stays as it is on either platform. -/
theorem Orchestrator.foreign_unseen {work : RouteWork} (hwork : work.isOnDomain = true)
    {w : World (Store τ) τ} {t : Store τ} (hw : w.platform.Reachable) (ht : t.Reachable)
    (hsame : t.native o.organizationId = w.platform.native o.organizationId) :
    let first := (o.perform work).run w
    let second := (o.perform work).run { w with platform := t }
    second.1 = first.1 ∧ second.2 = { first.2 with platform := second.2.platform } ∧
      second.2.platform.native o.organizationId = first.2.platform.native o.organizationId ∧
      first.2.platform.foreign o.organizationId = w.platform.foreign o.organizationId ∧
      second.2.platform.foreign o.organizationId = t.foreign o.organizationId := by
  intro first second
  -- Both runs are compared to the one on the platform that they have in common.
  obtain ⟨hfirst, hkept⟩ := oblivious_perform o hwork w (Holds.of_reachable hw o.organizationId)
  obtain ⟨hsecond, hkept'⟩ := oblivious_perform o hwork { w with platform := t }
    (Holds.of_reachable ht o.organizationId)
  have hcommon : ({ w with platform := t } : World (Store τ) τ).without (t.foreign o.organizationId) =
      w.without (w.platform.foreign o.organizationId) :=
    congrArg (fun s => { w with platform := s }) hsame
  have hruns := hsecond.symm.trans ((congrArg (o.perform work).run hcommon).trans hfirst)
  obtain ⟨houtcome, hafter⟩ := Prod.mk.inj hruns
  refine ⟨houtcome, ?_, ?_, hkept.foreign_eq, hkept'.foreign_eq⟩
  · exact congrArg (fun v : World (Store τ) τ => { v with platform := second.2.platform }) hafter
  · have hnative := congrArg World.platform hafter
    rw [Store.native, Store.native, hkept.foreign_eq, hkept'.foreign_eq]
    exact hnative

end Operations

/-- A platform with a shared domain, and numbers left out where another one has more. -/
def lonePlatform : Store ℚ :=
  ({ pageSize := 1, substringFilters := true } : Store ℚ).filled
    [.organization "acme", .space "org-1" "dev", .sharedDomain "example.com",
      .refused "private-domain", .refused "route"]

/-- The same with another organization's domain of the same name, on which there is a route. -/
def neighbouredPlatform : Store ℚ :=
  ({ pageSize := 1, substringFilters := true } : Store ℚ).filled
    [.organization "acme", .space "org-1" "dev", .sharedDomain "example.com",
      .privateDomain "org-9" "example.com",
      .route "private-domain-4" "space-2" (some "api") none none, .deletion "route-5" [.failed] none]

def loneWorld : World (Store ℚ) ℚ where
  platform := lonePlatform
  clock := 0
  fetchCost := 1
  cancelAt := none
  sleeps := []
  events := []
  patience := 9

def loneSpace : Orchestrator ℚ := ⟨"org-1", some "space-2", ⟨1, 5⟩⟩

attribute [ext] Store

theorem native_neighbouredPlatform :
    neighbouredPlatform.native "org-1" = lonePlatform.native "org-1" := by
  apply Store.ext
  case organizations | spaces | domains | applications | routes | jobs | deleteScripts =>
    exact Register.ext_items (by decide +kernel)
  case listFailures => with_unfolding_all rfl
  all_goals decide +kernel

/-- A route of the same host is created on the shared domain, whether or not another organization
has one on a domain of that name. -/
theorem Orchestrator.foreign_unseen_neighboured :
    let work : RouteWork := .create "example.com" "dev" (some "api") none
    let second := (loneSpace.perform work).run { loneWorld with platform := neighbouredPlatform }
    (work.isOnDomain = true ∧ lonePlatform.Reachable ∧ neighbouredPlatform.Reachable ∧
      neighbouredPlatform.native "org-1" = lonePlatform.native "org-1" ∧
      neighbouredPlatform.foreign "org-1" ≠ lonePlatform.foreign "org-1") ∧
    second.1 = .ok (.route (some ⟨"route-6", "shared-domain-3", "space-2", "api", "", none⟩)) ∧
    second.2.platform.foreign "org-1" = neighbouredPlatform.foreign "org-1" := by
  intro work second
  have hlone : lonePlatform.Reachable := (Store.Reachable.new 1 true _ rfl).filled _
  have hneighboured : neighbouredPlatform.Reachable := (Store.Reachable.new 1 true _ rfl).filled _
  have hdiffers : neighbouredPlatform.foreign "org-1" ≠ lonePlatform.foreign "org-1" := by
    intro h
    have hcount : (neighbouredPlatform.foreign "org-1").routes.length = 1 := by decide +kernel
    rw [h] at hcount
    exact absurd hcount (by decide +kernel)
  have hfirst : ((loneSpace.perform work).run loneWorld).1 =
      .ok (.route (some ⟨"route-6", "shared-domain-3", "space-2", "api", "", none⟩)) := by
    with_unfolding_all rfl
  have hwork : work.isOnDomain = true := rfl
  obtain ⟨houtcome, -, -, -, hforeign⟩ := loneSpace.foreign_unseen hwork (w := loneWorld) hlone
    hneighboured native_neighbouredPlatform
  exact ⟨⟨hwork, hlone, hneighboured, native_neighbouredPlatform, hdiffers⟩, houtcome.trans hfirst,
    hforeign⟩

end PlatformRoutes
