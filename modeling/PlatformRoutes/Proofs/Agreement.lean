import Mathlib.Data.List.Induction
import Mathlib.Data.Multiset.Basic
import PlatformRoutes.Proofs.Operations
import PlatformRoutes.Session.Run

namespace PlatformRoutes

section Act

variable {σ τ α β : Type} {R S T : σ → σ → Prop} {x : Act σ τ α}

/-- From two related states the action comes to the same, and the states it leaves are related. -/
def Agrees (R S : σ → σ → Prop) (x : Act σ τ α) : Prop :=
  ∀ s t, R s t → (x.run s).1 = (x.run t).1 ∧ S (x.run s).2 (x.run t).2

theorem Agrees.bind {f : α → Act σ τ β} (hx : Agrees R S x) (hf : ∀ a, Agrees S T (f a))
    (weaken : ∀ s t, S s t → T s t) : Agrees R T (x >>= f) := by
  intro s t h
  obtain ⟨houtcome, hafter⟩ := hx s t h
  cases hs : x.run s with
  | mk outcome s' =>
    cases ht : x.run t with
    | mk outcome' t' =>
      rw [hs, ht] at houtcome hafter
      obtain rfl : outcome = outcome' := houtcome
      cases outcome with
      | ok a =>
        rw [run_bind_ok hs, run_bind_ok ht]
        exact hf a s' t' hafter
      | error f =>
        rw [run_bind_error hs, run_bind_error ht]
        exact ⟨rfl, weaken s' t' hafter⟩

theorem Agrees.imp (hx : Agrees R S x) (weaken : ∀ s t, S s t → T s t) : Agrees R T x :=
  fun s t h => ⟨(hx s t h).1, weaken _ _ (hx s t h).2⟩

/-- Where only the members of a list count, their order may differ. -/
theorem Agrees.bind_unordered {x : Act σ τ (List α)} {f : List α → Act σ τ β}
    (hx : Agrees R S (do return (← x : Multiset α))) (hf : ∀ l, Agrees S T (f l))
    (unordered : ∀ l l', l.Perm l' → f l = f l') (weaken : ∀ s t, S s t → T s t) :
    Agrees R T (x >>= f) := by
  -- What ignores the order of a list is a function of the multiset.
  let lifted (m : Multiset α) : Act σ τ β := Quot.liftOn m f unordered
  have hlift : x >>= f = (do return (← x : Multiset α)) >>= lifted := by
    rw [bind_assoc]
    exact bind_congr fun l => (pure_bind (l : Multiset α) lifted).symm
  rw [hlift]
  exact hx.bind (fun m => Quot.inductionOn m hf) weaken

theorem Agrees.get_bind {g : σ → Act σ τ α} (same : ∀ s t, R s t → g t = g s)
    (hg : ∀ s, Agrees R S (g s)) : Agrees R S (get >>= g) := by
  intro s t h
  change ((g s).run s).1 = ((g t).run t).1 ∧ S ((g s).run s).2 ((g t).run t).2
  rw [same s t h]
  exact hg s s t h

end Act

/-- Two worlds with the same surroundings, whose platforms are related. The relation may depend on
the patience with which pages are counted. -/
def World.Beside {σ τ : Type} (R : Nat → σ → σ → Prop) (w v : World σ τ) : Prop :=
  ∃ s, v = { w with platform := s } ∧ R w.patience w.platform s

section Worlds

variable {σ τ α : Type} {R S : Nat → σ → σ → Prop}

theorem agrees_onPlatform {act : Act σ τ α} (h : ∀ n, Agrees (R n) (S n) act) :
    Agrees (World.Beside R) (World.Beside S) (Run.onPlatform act) := by
  rintro w _ ⟨s, rfl, hR⟩
  obtain ⟨houtcome, hafter⟩ := h w.patience w.platform s hR
  exact ⟨houtcome, _, rfl, hafter⟩

theorem agrees_emit (event : Event) :
    Agrees (World.Beside R) (World.Beside R) (Run.emit (τ := τ) event) := by
  rintro w _ ⟨s, rfl, hR⟩
  exact ⟨rfl, s, rfl, hR⟩

theorem agrees_sleep [Add τ] (duration : τ) :
    Agrees (World.Beside R) (World.Beside R) (Run.sleep duration) := by
  rintro w _ ⟨s, rfl, hR⟩
  rw [run_sleep_cases, run_sleep_cases]
  dsimp only
  split <;> exact ⟨rfl, s, rfl, hR⟩

theorem agrees_getJob [Platform σ τ] [Add τ] {jobId : String}
    (h : ∀ n, Agrees (R n) (S n) (Platform.getJob (σ := σ) jobId)) :
    Agrees (World.Beside R) (World.Beside S) (Run.getJob jobId) := by
  rintro w _ ⟨s, rfl, hR⟩
  exact agrees_onPlatform h { w with clock := w.clock + w.fetchCost } _ ⟨s, rfl, hR⟩

theorem agrees_composed :
    Composed fun {α} => Agrees (α := α) (World.Beside (τ := τ) R) (World.Beside R) where
  pure _ _ _ h := ⟨rfl, h⟩
  throw _ _ _ h := ⟨rfl, h⟩
  bind hx hf := hx.bind hf fun _ _ h => h
  attempt hx s t h := ⟨congrArg Except.ok (hx s t h).1, (hx s t h).2⟩
  surroundings free hg := by
    refine Agrees.get_bind ?_ hg
    rintro w _ ⟨s, rfl, -⟩
    exact free w s w.cancelAt

end Worlds

section Choices

variable {σ τ α β : Type}

/-- What looks at an only member and at nothing but the number of several. -/
theorem eq_of_perm {f : List α → β} (several : Nat → β)
    (h : ∀ x y rest, f (x :: y :: rest) = several (rest.length + 2)) {l l' : List α}
    (hl : l.Perm l') : f l = f l' := by
  match l, l', hl.length_eq with
  | [], [], _ => rfl
  | [x], [y], _ => rw [List.perm_singleton.mp hl]
  | _ :: _ :: rest, _ :: _ :: rest', hlength =>
    have hrest : rest.length = rest'.length := by simpa using hlength
    rw [h, h, hrest]

theorem single_unordered (kind : ResourceKind) (name : String) {l l' : List α}
    (h : l.Perm l') : Run.single (σ := σ) (τ := τ) kind name l = Run.single kind name l' :=
  eq_of_perm (fun n => throw (.ambiguous kind name n)) (fun _ _ _ => rfl) h

theorem onlyRoute_unordered (name : String) {l l' : List Route} (h : l.Perm l') :
    Run.onlyRoute (σ := σ) (τ := τ) name l = Run.onlyRoute name l' :=
  eq_of_perm (fun n => throw (.ambiguous .route name n)) (fun _ _ _ => rfl) h

end Choices

section Pairs

variable {σ τ : Type} [Platform σ τ]

/-- Two platforms on which every lookup is after the same records, whatever else either lists and in
whatever order, and on which every request changes the same. The relation may depend on the patience
with which pages are counted and on the room that is left for more records. -/
structure Twins (R : Nat → Nat → σ → σ → Prop) : Prop where
  narrow : ∀ room n s t, R (room + 1) n s t → R room n s t
  found : ∀ room q, Agrees (World.Beside (τ := τ) (R room)) (World.Beside (R room))
    (do return (← Run.found q : Multiset q.resource.Item))
  createRoute : ∀ room n domainId spaceId host path, Agrees (R (room + 1) n) (R room n)
    (Platform.createRoute (σ := σ) domainId spaceId host path)
  deleteRoute : ∀ room n routeId, Agrees (R room n) (R room n)
    (Platform.deleteRoute (σ := σ) routeId)
  getJob : ∀ room n jobId, Agrees (R room n) (R room n) (Platform.getJob (σ := σ) jobId)
  associateRoute : ∀ room n applicationId routeId, Agrees (R (room + 1) n) (R room n)
    (Platform.associateRoute (σ := σ) applicationId routeId)
  removeRoute : ∀ room n applicationId routeId, Agrees (R room n) (R room n)
    (Platform.removeRoute (σ := σ) applicationId routeId)

/-- On platforms that are related with some more room, the operation comes to the same. -/
def Agreed (R : Nat → Nat → σ → σ → Prop) (additions : Nat) {α : Type} (x : Run σ τ α) : Prop :=
  ∀ room, Agrees (World.Beside (R (room + additions))) (World.Beside (R room)) x

variable {R : Nat → Nat → σ → σ → Prop}

namespace Twins

theorem single (h : Twins R) (q : Query) (kind : ResourceKind) (name : String) :
    Agreed (τ := τ) R 0 (Run.found q >>= Run.single kind name) := fun room =>
  (h.found room q).bind_unordered (agrees_composed.single kind name)
    (fun _ _ hl => single_unordered kind name hl) fun _ _ hR => hR

theorem lookups (h : Twins R) : Lookups (fun {α} => Agreed (τ := τ) R 0 (α := α)) where
  pure a _ := agrees_composed.pure a
  throw f _ := agrees_composed.throw f
  bind hx hf room := agrees_composed.bind (hx room) fun a => hf a room
  attempt hx room := agrees_composed.attempt (hx room)
  surroundings free hg room := agrees_composed.surroundings free fun w => hg w room
  resolveOrganization name := h.single (.organization name) .organization name
  resolveSpace organizationId name := h.single (.space organizationId name) .space name
  resolveApplication spaceId name := h.single (.application spaceId name) .application name
  resolveDomain organizationId name room := by
    refine (h.found room (.ownedDomain organizationId name)).bind_unordered ?_ ?_ fun _ _ hR => hR
    · intro owned
      split
      · exact agrees_composed.single .domain name owned
      · exact h.single (.sharedDomain name) .domain name room
    · intro l l' hl
      exact eq_of_perm (f := fun owned => if !owned.isEmpty then Run.single .domain name owned else _)
        (fun n => throw (.ambiguous .domain name n)) (fun _ _ _ => rfl) hl
  findRoute domain host path room := by
    rw [Run.findRoute_eq_found]
    exact (h.found room (.route domain host path)).bind_unordered (agrees_composed.onlyRoute _)
      (fun _ _ => onlyRoute_unordered _) fun _ _ hR => hR

theorem weaken (h : Twins R) (additions : Nat) {room n : Nat} {s t : σ}
    (hR : R (room + additions) n s t) : R room n s t := by
  induction additions with
  | zero => exact hR
  | succ additions ih => exact ih (h.narrow _ n s t hR)

theorem weaken_beside (h : Twins R) (additions : Nat) {room : Nat} {w v : World σ τ}
    (hR : World.Beside (R (room + additions)) w v) : World.Beside (R room) w v := by
  obtain ⟨s, rfl, hs⟩ := hR
  exact ⟨s, rfl, h.weaken additions hs⟩

theorem operations [Add τ] (h : Twins R) :
    Operations (fun c {α} => Agreed (τ := τ) R c (α := α)) where
  lookups := h.lookups
  bind {_ _ c d _ _} hx hf room := by
    rw [Nat.add_comm c d, ← Nat.add_assoc]
    exact (hx (room + d)).bind (fun a => hf a room) fun _ _ => h.weaken_beside d
  more {_ c _} hx room := by
    intro w v hR
    exact hx room w v (h.weaken_beside 1 hR)
  emit event _ := agrees_emit event
  sleep duration _ := agrees_sleep duration
  getJob jobId room := agrees_getJob fun n => h.getJob room n jobId
  createRoute domainId spaceId host path room :=
    agrees_onPlatform fun n => h.createRoute room n domainId spaceId host path
  deleteRoute routeId room := agrees_onPlatform fun n => h.deleteRoute room n routeId
  associateRoute applicationId routeId room :=
    agrees_onPlatform fun n => h.associateRoute room n applicationId routeId
  removeRoute applicationId routeId room :=
    agrees_onPlatform fun n => h.removeRoute room n applicationId routeId

end Twins

end Pairs

/-- Two sessions that differ in nothing but their platforms, which are related. -/
def Session.Beside {σ τ : Type} (R : Nat → σ → σ → Prop) (a b : Session σ τ) : Prop :=
  ∃ w, b = { a with world := w } ∧ World.Beside R a.world w

/-- The steps that look something up, and those that act on one route. -/
def Step.resolves {τ : Type} : Step τ → Bool
  | .resolveOrganization _ | .resolveSpace _ _ | .resolveApplication _ _ | .resolveDomain _ _
  | .findRoute _ _ _ | .resolveRoute _ _ _ | .resolveOrCreateRoute _ _ _ _ | .target _ _
  | .targetIds _ _ | .check _ _ _ | .create _ _ _ _ | .map _ _ _ _ | .unmap _ _ _ _
  | .delete _ _ _ => true
  | _ => false

namespace Session

section Doing

variable {σ τ α β : Type} {R S : Nat → σ → σ → Prop}

theorem agrees_run {x : Run σ τ α} (h : Agrees (World.Beside R) (World.Beside S) x) :
    Agrees (Session.Beside R) (Session.Beside S) (run x) := by
  rintro a _ ⟨w, rfl, hR⟩
  obtain ⟨houtcome, hafter⟩ := h a.world w hR
  exact ⟨houtcome, (x.run w).2, rfl, hafter⟩

theorem agrees_targeted :
    Agrees (Session.Beside (σ := σ) (τ := τ) R) (Session.Beside R) targeted := by
  refine Agrees.get_bind ?_ fun a => ?_
  · rintro a _ ⟨w, rfl, -⟩
    rfl
  · cases a.target with
    | none => exact fun _ _ hR => ⟨rfl, hR⟩
    | some o => exact fun _ _ hR => ⟨rfl, hR⟩

theorem agrees_reply {x : Run σ τ α} (reply : α → Reply)
    (h : Agrees (World.Beside R) (World.Beside S) x) :
    Agrees (Session.Beside R) (Session.Beside S) (do return reply (← run x)) :=
  (agrees_run h).bind (fun _ _ _ hS => ⟨rfl, hS⟩) fun _ _ hS => hS

/-- An operation within the target. -/
theorem agrees_within {x : Orchestrator τ → Run σ τ α} (reply : α → Reply)
    (h : ∀ o, Agrees (World.Beside R) (World.Beside S) (x o))
    (weaken : ∀ w v : World σ τ, World.Beside R w v → World.Beside S w v) :
    Agrees (Session.Beside R) (Session.Beside S) (do return reply (← run (x (← targeted)))) := by
  refine agrees_targeted.bind (fun o => agrees_reply reply (h o)) ?_
  rintro a _ ⟨w, rfl, hR⟩
  exact ⟨w, rfl, weaken a.world w hR⟩

theorem agrees_aim (o : Orchestrator τ) :
    Agrees (Session.Beside (σ := σ) R) (Session.Beside R) (aim o) := by
  rintro a _ ⟨w, rfl, hR⟩
  exact ⟨rfl, w, rfl, hR⟩

end Doing

section Steps

variable {σ τ : Type} [Platform σ τ] [Add τ] [Sub τ] [OfNat τ 0] [LE τ] [LT τ] [DecidableLE τ]
  [DecidableLT τ] {R : Nat → Nat → σ → σ → Prop}

/-- One step adds two things to a platform at most, a route and an association. -/
theorem agrees_step (h : Twins R) {t : Step τ} (ht : t.resolves = true) (room : Nat) :
    Agrees (Session.Beside (R (room + 2))) (Session.Beside (R room)) (step (σ := σ) t) := by
  have ops := h.operations (τ := τ)
  have more {α : Type} {x : Run σ τ α} (hx : Agreed R 0 x) : Agreed R 2 x := ops.more (ops.more hx)
  have weaken (w v : World σ τ) (hR : World.Beside (R (room + 2)) w v) :
      World.Beside (R room) w v := h.weaken_beside 2 hR
  have weakly (a b : Session σ τ) (hR : Session.Beside (R (room + 2)) a b) :
      Session.Beside (R room) a b := by
    obtain ⟨w, rfl, hw⟩ := hR
    exact ⟨w, rfl, weaken a.world w hw⟩
  cases t with
  | resolveOrganization name =>
    exact agrees_reply _ (more (ops.lookups.resolveOrganization name) room)
  | resolveSpace organizationId name =>
    exact agrees_reply _ (more (ops.lookups.resolveSpace organizationId name) room)
  | resolveApplication spaceId name =>
    exact agrees_reply _ (more (ops.lookups.resolveApplication spaceId name) room)
  | resolveDomain organizationId name =>
    exact agrees_reply _ (more (ops.lookups.resolveDomain organizationId name) room)
  | findRoute domain host path =>
    exact agrees_reply _ (more (ops.lookups.findRoute domain host path) room)
  | resolveRoute domain host path =>
    exact agrees_reply (fun r => .route (some r))
      (more (ops.lookups.resolveRoute domain host path) room)
  | resolveOrCreateRoute domain host path spaceId =>
    exact agrees_reply (fun r => .route (some r))
      (ops.more (ops.resolveOrCreateRoute domain host path spaceId) room)
  | target organization space =>
    refine Agrees.get_bind ?_ fun a => ?_
    · rintro a _ ⟨w, rfl, -⟩
      rfl
    · exact (agrees_run (more (ops.lookups.forNames organization space a.poller) room)).bind
        agrees_aim fun _ _ hR => hR
  | targetIds organizationId spaceId =>
    refine Agrees.get_bind ?_ fun a => ?_
    · rintro a _ ⟨w, rfl, -⟩
      rfl
    · exact (agrees_aim _).imp weakly
  | check domain host path =>
    exact agrees_within .flag (fun o => more (ops.lookups.check o domain host path) room) weaken
  | create domain space host path =>
    exact agrees_within (fun r => .route (some r))
      (fun o => ops.more (ops.create o domain space host path) room) weaken
  | map application domain host path =>
    exact agrees_within (fun r => .route (some r))
      (fun o => ops.map o application domain host path room) weaken
  | unmap application domain host path =>
    exact agrees_within (fun _ => .done)
      (fun o => more (ops.unmap o application domain host path) room) weaken
  | delete domain host path =>
    exact agrees_within (fun _ => .done)
      (fun o => more (ops.delete o domain host path) room) weaken
  | _ => cases ht

/-- Steps that each come to the same in related sessions do so one after another. -/
theorem agrees_steps {allowed : Step τ → Bool}
    (h : ∀ t room, allowed t = true →
      Agrees (Session.Beside (R (room + 2))) (Session.Beside (R room)) (step (σ := σ) t))
    (todo : List (Step τ)) (hall : ∀ t ∈ todo, allowed t = true) (room : Nat)
    {a b : Session σ τ} (hab : Session.Beside (R (room + 2 * todo.length)) a b) :
    (steps todo a).1 = (steps todo b).1 ∧
      Session.Beside (R room) (steps todo a).2 (steps todo b).2 := by
  -- The last step is taken off, and the steps before it are to leave room for what it adds.
  induction todo using List.reverseRecOn generalizing room with
  | nil => exact ⟨rfl, hab⟩
  | append_singleton todo t ih =>
    have hlength : room + 2 * (todo ++ [t]).length = room + 2 + 2 * todo.length := by
      rw [List.length_append, List.length_singleton]
      omega
    rw [hlength] at hab
    obtain ⟨hreplies, hbeside⟩ :=
      ih (fun t ht => hall t (List.mem_append_left _ ht)) (room + 2) hab
    obtain ⟨hreply, hafter⟩ := h t room (hall t (by simp)) _ _ hbeside
    have hlast (s : Session σ τ) : steps (todo ++ [t]) s =
        ((steps todo s).1 ++ [((step t).run (steps todo s).2).1],
          ((step t).run (steps todo s).2).2) := List.foldl_append
    rw [hlast, hlast, hreplies, hreply]
    exact ⟨rfl, hafter⟩

end Steps

end Session

end PlatformRoutes
