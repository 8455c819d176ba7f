import PlatformRoutes.Proofs.Agreement
import PlatformRoutes.Proofs.Matching
import PlatformRoutes.Proofs.UniqueKeys

namespace PlatformRoutes

namespace Store

variable {τ : Type} {s t : Store τ} {size : ℕ} {loose : Bool} {calls : List Request}
  {resource : Resource} {filters : Filters}

/-- The same platform with pages of another size, with filters of one kind or the other, and after
some other requests that left nothing behind. -/
def retuned (s : Store τ) (size : ℕ) (loose : Bool) (calls : List Request) : Store τ :=
  { s with pageSize := size, substringFilters := loose, calls := calls }

/-- Two platforms that hold the same. Pages are counted with patience for all that they hold and for
some more. -/
structure Retuned (room patience : ℕ) (s t : Store τ) : Prop where
  paged : 0 < s.pageSize
  other : ∃ size loose calls, 0 < size ∧ t = s.retuned size loose calls
  patient : s.extent + room < patience

end Store

def World.retuned {τ : Type} (w : World (Store τ) τ) (size : ℕ) (loose : Bool)
    (calls : List Request) : World (Store τ) τ :=
  { w with platform := w.platform.retuned size loose calls }

namespace Store

variable {τ : Type} {s t : Store τ} {size : ℕ} {loose : Bool} {calls : List Request}
  {resource : Resource} {filters : Filters}

/-- Only hosts and paths are filtered loosely by any platform. -/
theorem listing_retuned (s : Store τ) (hhost : filters.get? .host = none)
    (hpath : filters.get? .path = none) :
    (s.retuned size loose calls).listing resource filters = s.listing resource filters := by
  have hfits : (s.retuned size loose calls).routeFits filters = s.routeFits filters := by
    funext r
    unfold routeFits passes
    rw [hhost, hpath]
    rfl
  have hselect : (s.retuned size loose calls).select resource filters =
      s.select resource filters := by
    cases resource with
    | routes | spaceRoutes => rw [select, hfits]; rfl
    | _ => rfl
  unfold listing
  rw [hselect]
  rfl

theorem found_retuned (s : Store τ) (q : Query) :
    ((s.retuned size loose calls).listing q.resource q.filters).map (List.filter q.means) =
      (s.listing q.resource q.filters).map (List.filter q.means) := by
  cases q with
  | route domain host path =>
    exact (listing_routeFilters _ domain host path).trans
      (listing_routeFilters s domain host path).symm
  | _ => rw [listing_retuned s rfl rfl]

variable {w : World (Store τ) τ}

section Traversal

variable {β : Type} {handle : resource.Item → Run (Store τ) τ β} (hhandle : ∀ x, Looks (handle x))
include hhandle

/-- Pages that are fetched and handled in turn come to what handling all their items does. -/
theorem outcome_traverse_from {items : List resource.Item} (hpos : 0 < w.platform.pageSize)
    (h : w.platform.listing resource filters = .ok items) (fuel : ℕ) {n : ℕ} (hn : 1 ≤ n)
    (hf : max 1 (pageCount w.platform.pageSize items.length + 1 - n) ≤ fuel) :
    ((Paging.traverse (Run.pagesOf resource filters) handle fuel n).run w).1 =
      (((items.drop ((n - 1) * w.platform.pageSize)).mapM handle).run w).1 := by
  have hmap (l : List resource.Item) : Looks (l.mapM handle) := looks_composed.mapM hhandle l
  have htraverse (fuel n : ℕ) :
      Looks (Paging.traverse (Run.pagesOf resource filters) handle fuel n) :=
    looks_composed.traverse (fun m => looks_page resource filters m) hhandle fuel n
  have hpure {α : Type} (a : α) : Looks (pure a : Run (Store τ) τ α) := looks_composed.pure a
  induction fuel generalizing n with
  | zero => omega
  | succ fuel ih =>
    have hp := run_page resource filters n w
    rw [listPage_ok h hn] at hp
    rw [Paging.traverse, run_bind_ok hp]
    dsimp only
    by_cases more : n < pageCount w.platform.pageSize items.length
    · have hnext : (Page.mk ((items.drop ((n - 1) * w.platform.pageSize)).take w.platform.pageSize) n
          (pageCount w.platform.pageSize items.length)).hasNext = true := by
        simpa [Page.hasNext] using more
      have hrest := ih (n := n + 1) (by omega) (by omega)
      rw [Nat.add_sub_cancel] at hrest
      have htail (handled : List β) : Looks (do
          let rest ← Paging.traverse (Run.pagesOf resource filters) handle fuel (n + 1)
          return handled ++ rest) := (htraverse fuel (n + 1)).bind fun _ => hpure _
      simp only [hnext, if_true]
      -- What is handled first only lists, so the pages after it are the same as without it.
      rw [((hmap _).bind htail).outcome_logged, (hmap _).outcome_bind htail]
      conv_rhs =>
        rw [← page_append_rest w.platform.pageSize items hn, List.mapM_append,
          (hmap _).outcome_bind fun _ => (hmap _).bind fun _ => hpure _]
      congr 1
      funext handled
      rw [(htraverse _ _).outcome_bind fun _ => hpure _, hrest,
        (hmap _).outcome_bind fun _ => hpure _]
    · have hnext : (Page.mk ((items.drop ((n - 1) * w.platform.pageSize)).take w.platform.pageSize) n
          (pageCount w.platform.pageSize items.length)).hasNext = false := by
        simpa [Page.hasNext] using more
      have hfits := last_page_fits hpos items hn (Nat.not_lt.mp more)
      simp only [hnext, Bool.false_eq_true, if_false, bind_pure]
      rw [(hmap _).outcome_logged, List.take_of_length_le hfits]

theorem outcome_traverse (h : w.Patient) (filters : Filters) :
    ((Paging.traverse (Run.pagesOf resource filters) handle w.patience 1).run w).1 =
      w.platform.listing resource filters >>= fun items => ((items.mapM handle).run w).1 := by
  have hread := (pagesRead_le h.paged resource filters).trans h.extent
  unfold pagesRead at hread
  cases hl : w.platform.listing resource filters with
  | error f =>
    obtain ⟨fuel, hfuel⟩ := Nat.exists_eq_add_of_le' h.one_le
    have hp := run_page resource filters 1 w
    rw [listPage_error hl] at hp
    rw [hfuel, Paging.traverse, run_bind_error hp]
    rfl
  | ok items =>
    rw [hl] at hread
    have hfrom := outcome_traverse_from hhandle h.paged hl w.patience (Nat.le_refl 1) hread
    rwa [Nat.sub_self, Nat.zero_mul, List.drop_zero] at hfrom

end Traversal

/-- What only lists agrees on such platforms as soon as it comes to the same. -/
theorem agrees_of_looks {α : Type} {room : ℕ} {x : Run (Store τ) τ α} (hx : Looks x)
    (same : ∀ w size loose calls, w.Patient → World.Patient (w.retuned size loose calls) →
      (x.run (w.retuned size loose calls)).1 = (x.run w).1) :
    Agrees (World.Beside (Retuned room)) (World.Beside (Retuned room)) x := by
  rintro w _ ⟨_, rfl, paged, ⟨size, loose, calls, hsize, rfl⟩, patient⟩
  have hpatient := (Nat.le_add_right w.platform.extent room).trans_lt patient
  have houtcome := same w size loose calls ⟨paged, hpatient⟩ ⟨hsize, hpatient⟩
  obtain ⟨before, hw⟩ := hx.run w
  obtain ⟨after, hv⟩ := hx.run (w.retuned size loose calls)
  change (x.run w).1 = (x.run (w.retuned size loose calls)).1 ∧
    World.Beside (Retuned room) (x.run w).2 (x.run (w.retuned size loose calls)).2
  rw [hw, hv]
  exact ⟨houtcome.symm, _, rfl, paged, ⟨size, loose, _, hsize, rfl⟩, patient⟩

theorem agrees_found (room : ℕ) (q : Query) :
    Agrees (World.Beside (Retuned (τ := τ) room)) (World.Beside (Retuned room))
      (do return (← Run.found q : Multiset q.resource.Item)) := by
  have hfound : Agrees (World.Beside (Retuned (τ := τ) room)) (World.Beside (Retuned room))
      (Run.found q) := by
    refine agrees_of_looks (looks_composed.found looks_page q) fun w size loose calls h h' => ?_
    rw [outcome_found h, outcome_found h']
    exact found_retuned w.platform q
  exact hfound.bind (fun _ _ _ h => ⟨rfl, h⟩) fun _ _ h => h

theorem agrees_listAll (resource : Resource) (room : ℕ) (hhost : filters.get? .host = none)
    (hpath : filters.get? .path = none) :
    Agrees (World.Beside (Retuned (τ := τ) room)) (World.Beside (Retuned room))
      (Run.listAll resource filters) := by
  refine agrees_of_looks (looks_composed.listAll looks_page resource filters)
    fun w size loose calls h h' => ?_
  rw [outcome_listAll h, outcome_listAll h']
  exact listing_retuned w.platform hhost hpath

theorem agrees_listFirst (resource : Resource) (room : ℕ) (hhost : filters.get? .host = none)
    (hpath : filters.get? .path = none) :
    Agrees (World.Beside (Retuned (τ := τ) room)) (World.Beside (Retuned room))
      (Run.listFirst resource filters) := by
  refine agrees_of_looks (looks_composed.listFirst looks_page resource filters)
    fun w size loose calls h h' => ?_
  rw [run_listFirst h.paged h.one_le, run_listFirst h'.paged h'.one_le]
  exact congrArg (Except.map List.head?) (listing_retuned w.platform hhost hpath)

/-- Handling every item of a listing agrees if handling one does. -/
theorem agrees_traverse {β : Type} (room : ℕ) {handle : resource.Item → Run (Store τ) τ β}
    (hlooks : ∀ x, Looks (handle x))
    (hagrees : ∀ x, Agrees (World.Beside (Retuned 0)) (World.Beside (Retuned 0)) (handle x))
    (hhost : filters.get? .host = none) (hpath : filters.get? .path = none) :
    Agrees (World.Beside (Retuned room)) (World.Beside (Retuned room))
      (do Paging.traverse (Run.pagesOf resource filters) handle (← get).patience 1) := by
  refine agrees_of_looks ?_ fun w size loose calls h h' => ?_
  · exact looks_composed.surroundings (fun _ _ _ => rfl) fun w =>
      looks_composed.traverse (fun n => looks_page resource filters n) hlooks w.patience 1
  · have hitems (items : List resource.Item) : ((items.mapM handle).run w).1 =
        ((items.mapM handle).run (w.retuned size loose calls)).1 :=
      (agrees_composed.mapM hagrees items w _
        ⟨_, rfl, h.paged, ⟨size, loose, calls, h'.paged, rfl⟩, h.extent⟩).1
    have hrun := outcome_traverse hlooks h filters
    have hrun' := outcome_traverse hlooks h' filters
    refine hrun'.trans (Eq.trans ?_ hrun.symm)
    simp only [hitems]
    exact congrArg (· >>= _) (listing_retuned w.platform hhost hpath)

theorem agrees_list (room : ℕ) (o : Orchestrator τ) (level : Level) :
    Agrees (World.Beside (Retuned room)) (World.Beside (Retuned room)) (o.list level) := by
  have listed (room : ℕ) (resource : Resource) (filters : Filters)
      (hhost : filters.get? .host = none) (hpath : filters.get? .path = none) :=
    agrees_listAll (τ := τ) resource room hhost hpath
  have hlooks (names : Orchestrator.Directory) (r : Route) :
      Looks (τ := τ) (Orchestrator.join names r) :=
    looks_composed.join (fun resource filters _ _ => looks_composed.listAll looks_page _ _) names r
  have hjoin (names : Orchestrator.Directory) (r : Route) :=
    agrees_composed.join (listed 0) names r
  cases level with
  | organization =>
    rw [Orchestrator.list, Orchestrator.routePages, pure_bind]
    exact agrees_composed.bind (agrees_composed.directory (listed room) o) fun names =>
      agrees_traverse room (hlooks names) (hjoin names) rfl rfl
  | space =>
    rw [Orchestrator.list, Orchestrator.routePages, bind_assoc]
    refine agrees_composed.bind (agrees_composed.requireSpace o) fun spaceId => ?_
    rw [pure_bind]
    exact agrees_composed.bind (agrees_composed.directory (listed room) o) fun names =>
      agrees_traverse room (hlooks names) (hjoin names) rfl rfl

theorem length_putInto_le {α : Type} [Keyed α] (a : α) :
    ∀ l : List α, (Register.putInto a l).length ≤ l.length + 1
  | [] => Nat.le_refl 1
  | b :: rest => by
    unfold Register.putInto
    split
    · exact Nat.le_succ _
    · exact Nat.succ_le_succ (length_putInto_le a rest)

theorem extent_put_le (s : Store τ) (r : Route) :
    ({ s with routes := s.routes.put r } : Store τ).extent ≤ s.extent + 1 := by
  have hlength : (s.routes.put r).items.length ≤ s.routes.items.length + 1 :=
    length_putInto_le r s.routes.items
  simp only [extent]
  omega

/-- A request that is answered alike, and changes the same, however the platform cuts and filters
its listings. It adds some things at most. -/
def Unaware {α : Type} (additions : ℕ) (act : Act (Store τ) τ α) : Prop :=
  ∀ s : Store τ, (act.run s).2.pageSize = s.pageSize ∧
    (act.run s).2.extent ≤ s.extent + additions ∧
    ∀ size loose calls, ∃ calls', act.run (s.retuned size loose calls) =
      ((act.run s).1, (act.run s).2.retuned size loose calls')

theorem Unaware.agrees {α : Type} {additions : ℕ} {act : Act (Store τ) τ α}
    (h : Unaware additions act) (room n : ℕ) :
    Agrees (Retuned (room + additions) n) (Retuned room n) act := by
  rintro s _ ⟨paged, ⟨size, loose, calls, hsize, rfl⟩, patient⟩
  obtain ⟨hpaged, hextent, hsame⟩ := h s
  obtain ⟨calls', hrun⟩ := hsame size loose calls
  rw [hrun]
  exact ⟨rfl, hpaged ▸ paged, ⟨size, loose, calls', hsize, rfl⟩, by omega⟩

theorem unaware_createRoute (domainId spaceId : String) (host path : Option String) :
    Unaware 1 (createRoute (τ := τ) domainId spaceId host path) := by
  intro s
  have hrun := run_createRoute (τ := τ) domainId spaceId host path
  -- Each case is said of any platform with these domains and routes, as the other one is.
  by_cases hdomain : (!s.domains.contains domainId) = true
  · have refused (t : Store τ) (ht : t.domains = s.domains) : _ :=
      (hrun t).trans (if_pos (ht ▸ hdomain))
    rw [refused s rfl]
    exact ⟨rfl, Nat.le_succ _, fun size loose calls => ⟨_, refused _ rfl⟩⟩
  by_cases htaken : (s.routes.items.any fun r => r.key == .of domainId host path) = true
  · have refused (t : Store τ) (hd : t.domains = s.domains) (hr : t.routes = s.routes) : _ :=
      (hrun t).trans ((if_neg (hd ▸ hdomain)).trans (if_pos (hr ▸ htaken)))
    rw [refused s rfl rfl]
    exact ⟨rfl, Nat.le_succ _, fun size loose calls => ⟨_, refused _ rfl rfl⟩⟩
  have added (t : Store τ) (hd : t.domains = s.domains) (hr : t.routes = s.routes) : _ :=
    (hrun t).trans ((if_neg (hd ▸ hdomain)).trans ((if_neg (hr ▸ htaken)).trans
      (run_addRoute domainId spaceId host path none _)))
  by_cases hempty : domainId.isEmpty = true
  · have refused (t : Store τ) (hd : t.domains = s.domains) (hr : t.routes = s.routes) : _ :=
      (added t hd hr).trans (if_pos hempty)
    rw [refused s rfl rfl]
    exact ⟨rfl, Nat.le_succ _, fun size loose calls => ⟨_, refused _ rfl rfl⟩⟩
  · have granted (t : Store τ) (hd : t.domains = s.domains) (hr : t.routes = s.routes) : _ :=
      (added t hd hr).trans (if_neg hempty)
    rw [granted s rfl rfl]
    exact ⟨rfl, extent_put_le s _, fun size loose calls => ⟨_, granted _ rfl rfl⟩⟩

theorem unaware_deleteRoute (routeId : String) : Unaware 0 (deleteRoute (τ := τ) routeId) := by
  intro s
  cases h : s.routes.contains routeId with
  | true =>
    have h' (size : ℕ) (loose : Bool) (calls : List Request) :
      (s.retuned size loose calls).routes.contains routeId = true := h
    rw [run_deleteRoute h]
    exact ⟨rfl, Nat.le_refl _, fun size loose calls => ⟨_, run_deleteRoute (h' size loose calls)⟩⟩
  | false =>
    have h' (size : ℕ) (loose : Bool) (calls : List Request) :
      (s.retuned size loose calls).routes.contains routeId = false := h
    rw [run_deleteRoute_unknown h]
    exact ⟨rfl, Nat.le_refl _, fun size loose calls =>
      ⟨_, run_deleteRoute_unknown (h' size loose calls)⟩⟩

theorem extent_look_le (s : Store τ) (track : JobTrack) : (s.look track).extent ≤ s.extent := by
  unfold look
  split
  · cases track.route with
    | none => exact Nat.le_refl _
    | some routeId =>
      have hroutes := List.length_filter_le (fun r : Route => Keyed.key r != routeId) s.routes.items
      have hassociations := List.length_filter_le (fun a => a.2 != routeId) s.associations
      simp only [extent, dropRoute, Register.erase]
      omega
  · exact Nat.le_refl _

theorem look_retuned (s : Store τ) (track : JobTrack) (size : ℕ) (loose : Bool)
    (calls : List Request) :
    (s.retuned size loose calls).look track = (s.look track).retuned size loose calls := by
  unfold look
  split
  · cases track.route <;> rfl
  · rfl

theorem pageSize_look (s : Store τ) (track : JobTrack) : (s.look track).pageSize = s.pageSize := by
  obtain ⟨_, _, _, h⟩ := s.look_frame track
  rw [h]

theorem unaware_getJob (jobId : String) : Unaware 0 (getJob (τ := τ) jobId) := by
  intro s
  cases h : s.jobs.find? jobId with
  | none =>
    have unknown (t : Store τ) (ht : t.jobs = s.jobs) : _ :=
      run_getJob_unknown (s := t) (ht ▸ h)
    rw [unknown s rfl]
    exact ⟨rfl, Nat.le_refl _, fun size loose calls => ⟨_, unknown _ rfl⟩⟩
  | some track =>
    have known (t : Store τ) (ht : t.jobs = s.jobs) : _ := run_getJob (s := t) (ht ▸ h)
    rw [known s rfl]
    refine ⟨pageSize_look _ track, extent_look_le _ track, fun size loose calls => ?_⟩
    have hlook := look_retuned { s with calls := s.calls ++ [.getJob jobId] } track size loose
      (calls ++ [.getJob jobId])
    exact ⟨_, (known (s.retuned size loose calls) rfl).trans (congrArg (Prod.mk _) hlook)⟩

theorem unaware_associateRoute (applicationId routeId : String) :
    Unaware 1 (associateRoute (τ := τ) applicationId routeId) := by
  intro s
  have hrun := run_associateRoute (τ := τ) applicationId routeId
  by_cases hknown : s.associations.contains (applicationId, routeId) = true
  · have kept (t : Store τ) (ht : t.associations = s.associations) : _ :=
      (hrun t).trans (congrArg (Prod.mk _) (if_pos (ht ▸ hknown)))
    rw [kept s rfl]
    exact ⟨rfl, Nat.le_succ _, fun size loose calls => ⟨_, kept _ rfl⟩⟩
  · have added (t : Store τ) (ht : t.associations = s.associations) : _ :=
      (hrun t).trans (congrArg (Prod.mk _) (if_neg (ht ▸ hknown)))
    rw [added s rfl]
    refine ⟨rfl, ?_, fun size loose calls => ⟨_, added _ rfl⟩⟩
    simp only [extent, List.length_append, List.length_singleton]
    omega

theorem unaware_removeRoute (applicationId routeId : String) :
    Unaware 0 (removeRoute (τ := τ) applicationId routeId) := by
  intro s
  refine ⟨rfl, ?_, fun size loose calls => ⟨_, rfl⟩⟩
  have hassociations : (s.associations.erase (applicationId, routeId)).length ≤ _ :=
    List.length_erase_le
  exact Nat.add_le_add_left hassociations _

theorem retuned_twins : Twins (τ := τ) (Retuned (τ := τ)) where
  narrow room n s t h := ⟨h.paged, h.other, by have := h.patient; omega⟩
  found := agrees_found
  createRoute room n domainId spaceId host path :=
    (unaware_createRoute domainId spaceId host path).agrees room n
  deleteRoute room n routeId := (unaware_deleteRoute routeId).agrees room n
  getJob room n jobId := (unaware_getJob jobId).agrees room n
  associateRoute room n applicationId routeId :=
    (unaware_associateRoute applicationId routeId).agrees room n
  removeRoute room n applicationId routeId :=
    (unaware_removeRoute applicationId routeId).agrees room n

end Store

/-- The steps that target an organization or a space, and all operations on routes there. -/
def Step.operates {τ : Type} : Step τ → Bool
  | .list _ | .deleteOrphaned => true
  | t => t.resolves

namespace Session

variable {τ : Type} [Add τ] [Sub τ] [OfNat τ 0] [LE τ] [LT τ] [DecidableLE τ] [DecidableLT τ]

theorem agrees_operation (t : Step τ) (room : ℕ) (ht : t.operates = true) :
    Agrees (Session.Beside (Store.Retuned (room + 2))) (Session.Beside (Store.Retuned room))
      (step (σ := Store τ) t) := by
  have ops := Store.retuned_twins (τ := τ).operations
  have weaken (w v : World (Store τ) τ) (h : World.Beside (Store.Retuned (room + 2)) w v) :
      World.Beside (Store.Retuned room) w v := Store.retuned_twins.weaken_beside 2 h
  cases t with
  | list level =>
    have hlist (o : Orchestrator τ) : Agreed Store.Retuned 0 (o.list (σ := Store τ) level) :=
      fun room => Store.agrees_list room o level
    exact agrees_within .records (fun o => ops.more (ops.more (hlist o)) room) weaken
  | deleteOrphaned =>
    have hsweep (o : Orchestrator τ) :
        Agreed Store.Retuned 0 (o.deleteOrphanedRoutes (σ := Store τ)) :=
      ops.deleteOrphanedRoutes o (fun _ room => Store.agrees_listAll _ room rfl rfl)
        fun _ room => Store.agrees_listFirst _ room rfl rfl
    exact agrees_within .ids (fun o => ops.more (ops.more (hsweep o)) room) weaken
  | _ =>
    refine agrees_step Store.retuned_twins ?_ room
    exact ht

/-- Two sessions on platforms in memory answered every step the same, and they left the same events,
sleeps, routes and associations. -/
structure SameEnds (here there : List (Except (Failure τ) Reply) × Session (Store τ) τ) : Prop where
  replies : here.1 = there.1
  events : here.2.world.events = there.2.world.events
  sleeps : here.2.world.sleeps = there.2.world.sleeps
  routes : here.2.world.platform.routes = there.2.world.platform.routes
  associations : here.2.world.platform.associations = there.2.world.platform.associations

/-- The size of a platform's pages and the looseness of its filters cannot be observed. Whatever
operations a session does with patience for all that the platform holds and will hold, after any
number of them it has shown the same as on a platform with pages of another size and with other
filters. -/
theorem steps_retuned (a : Session (Store τ) τ) (hpaged : 0 < a.world.platform.pageSize)
    {size : ℕ} (hsize : 0 < size) (loose : Bool) (calls : List Request) (todo : List (Step τ))
    (hall : ∀ t ∈ todo, t.operates = true)
    (hpatience : a.world.platform.extent + 2 * todo.length < a.world.patience) (n : ℕ) :
    SameEnds (steps (todo.take n) a)
      (steps (todo.take n) { a with world := a.world.retuned size loose calls }) := by
  have hlength := List.length_take_le' n todo
  have hbeside : Session.Beside (Store.Retuned (0 + 2 * (todo.take n).length)) a
      { a with world := a.world.retuned size loose calls } :=
    ⟨_, rfl, _, rfl, hpaged, ⟨size, loose, calls, hsize, rfl⟩, by omega⟩
  obtain ⟨hreplies, w, hw, s, hs, -, ⟨_, _, _, -, hsame⟩, -⟩ :=
    agrees_steps agrees_operation (todo.take n) (fun t ht => hall t (List.mem_of_mem_take ht)) 0
      hbeside
  refine ⟨hreplies, ?_, ?_, ?_, ?_⟩ <;> rw [hw, hs]
  · rw [hsame]
    rfl
  · rw [hsame]
    rfl

/-- A session on a platform with pages of one item and with loose filters. -/
def looseSession : Session (Store ℚ) ℚ where
  world := ⟨Turn.looseStore, 0, 0, none, [], [], 20⟩
  poller := ⟨1, 5⟩

/-- A route is mapped whose host is a part of another one's, and then that other route is swept. -/
def looseSteps : List (Step ℚ) :=
  [.target "org" (some "space"), .check "example.com" (some "api") (some "v1"),
    .map "app" "example.com" (some "api") (some "v1"), .deleteOrphaned]

theorem steps_retuned_loosely :
    SameEnds (steps looseSteps looseSession)
      (steps looseSteps { looseSession with world := looseSession.world.retuned 50 false [] }) ∧
    (steps looseSteps looseSession).1.map Except.isOk = [true, true, true, true] ∧
    (steps looseSteps looseSession).2.world.platform.routes.items =
      [⟨"route-7", "domain-3", "space-2", "api", "/v1", none⟩] ∧
    (steps looseSteps looseSession).2.world.platform.associations = [("app-4", "route-7")] :=
  ⟨steps_retuned looseSession (by decide) (by decide) false [] looseSteps (by decide) (by decide) 4,
    by decide +kernel, by decide +kernel, by decide +kernel⟩

end Session

end PlatformRoutes
