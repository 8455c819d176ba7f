import PlatformRoutes.Proofs.Operations
import PlatformRoutes.Session.Basic

namespace PlatformRoutes

section Platform

variable {σ τ α β : Type} [Platform σ τ]

/-- A request put to a platform. Of the answer only a failure is kept. -/
def Request.perform : Request → Act σ τ Unit
  | .listResources resource filters page => do
    let _ ← Platform.listResources resource filters page
    return ()
  | .createRoute domainId spaceId host path => do
    let _ ← Platform.createRoute domainId spaceId host path
    return ()
  | .deleteRoute routeId => do
    let _ ← Platform.deleteRoute routeId
    return ()
  | .getJob jobId => do
    let _ ← Platform.getJob jobId
    return ()
  | .associateRoute applicationId routeId => Platform.associateRoute applicationId routeId
  | .removeRoute applicationId routeId => Platform.removeRoute applicationId routeId

/-- What a request leaves of a platform. -/
def Request.after (q : Request) (s : σ) : σ := (q.perform.run s).2

/-- The platform after some requests. -/
def replay (s : σ) (requests : List Request) : σ := requests.foldl (fun s q => q.after s) s

theorem replay_append (s : σ) (before later : List Request) :
    replay s (before ++ later) = replay (replay s before) later := List.foldl_append

/-- An operation that acts on the platform through requests alone. -/
def Asks (x : Run σ τ α) : Prop :=
  ∀ w : World σ τ, ∃ requests, (x.run w).2.platform = replay w.platform requests

variable {x : Run σ τ α}

theorem asks_of_quiet (h : ∀ w : World σ τ, (x.run w).2.platform = w.platform) : Asks x :=
  fun w => ⟨[], h w⟩

theorem Asks.bind {f : α → Run σ τ β} (hx : Asks x) (hf : ∀ a, Asks (f a)) : Asks (x >>= f) := by
  intro w
  obtain ⟨before, hbefore⟩ := hx w
  cases hr : x.run w with
  | mk outcome v =>
    rw [hr] at hbefore
    cases outcome with
    | error e => exact ⟨before, by rw [run_bind_error hr]; exact hbefore⟩
    | ok a =>
      obtain ⟨later, hlater⟩ := hf a v
      refine ⟨before ++ later, ?_⟩
      rw [run_bind_ok hr, hlater, hbefore, replay_append]

theorem Asks.attempt (hx : Asks x) : Asks (attempt x) := fun w => hx w

theorem Asks.get_bind {g : World σ τ → Run σ τ α} (h : ∀ w, Asks (g w)) : Asks (get >>= g) :=
  fun w => h w w

theorem asks_composed : Composed (Asks (σ := σ) (τ := τ)) where
  pure _ := asks_of_quiet fun _ => rfl
  throw _ := asks_of_quiet fun _ => rfl
  bind := Asks.bind
  attempt := Asks.attempt
  surroundings _ h := Asks.get_bind h

theorem asks_emit (event : Event) : Asks (Run.emit (σ := σ) (τ := τ) event) :=
  asks_of_quiet fun _ => rfl

omit [Platform σ τ] in
/-- An answer that is thrown away was still asked for. -/
theorem run_discarded {act : Act σ τ α} (s : σ) :
    ((do let _ ← act; return () : Act σ τ Unit).run s).2 = (act.run s).2 := by
  cases hr : act.run s with
  | mk outcome t =>
    cases outcome with
    | ok a =>
      rw [run_bind_ok hr]
      rfl
    | error f => rw [run_bind_error hr]

theorem asks_onPlatform {act : Act σ τ α} (q : Request)
    (h : ∀ s : σ, (act.run s).2 = q.after s) : Asks (Run.onPlatform act) :=
  fun w => ⟨[q], h w.platform⟩

theorem asks_page (resource : Resource) (filters : Filters) (n : Int) :
    Asks (Run.listResources (σ := σ) resource filters n) :=
  asks_onPlatform (.listResources resource filters n) fun s => (run_discarded s).symm

theorem asks_createRoute (domainId spaceId : String) (host path : Option String) :
    Asks (Run.createRoute (σ := σ) domainId spaceId host path) :=
  asks_onPlatform (.createRoute domainId spaceId host path) fun s => (run_discarded s).symm

theorem asks_deleteRoute (routeId : String) : Asks (Run.deleteRoute (σ := σ) routeId) :=
  asks_onPlatform (.deleteRoute routeId) fun s => (run_discarded s).symm

theorem asks_associateRoute (applicationId routeId : String) :
    Asks (Run.associateRoute (σ := σ) applicationId routeId) :=
  asks_onPlatform (.associateRoute applicationId routeId) fun _ => rfl

theorem asks_removeRoute (applicationId routeId : String) :
    Asks (Run.removeRoute (σ := σ) applicationId routeId) :=
  asks_onPlatform (.removeRoute applicationId routeId) fun _ => rfl

section Timed

variable [Add τ]

theorem asks_getJob (jobId : String) : Asks (Run.getJob (σ := σ) jobId) :=
  Asks.bind (x := modify _) (asks_of_quiet fun _ => rfl) fun _ =>
    asks_onPlatform (.getJob jobId) fun s => (run_discarded s).symm

theorem asks_sleep (duration : τ) : Asks (Run.sleep (σ := σ) duration) := by
  refine asks_of_quiet fun w => ?_
  rw [run_sleep_cases]
  split <;> rfl

theorem asks_operations : Operations (σ := σ) (τ := τ) fun _ => Asks where
  lookups := asks_composed.lookups asks_page
  bind := Asks.bind
  more h := h
  emit := asks_emit
  sleep := asks_sleep
  getJob := asks_getJob
  createRoute := asks_createRoute
  deleteRoute := asks_deleteRoute
  associateRoute := asks_associateRoute
  removeRoute := asks_removeRoute

end Timed

end Platform

/-- What an orchestrator is asked to do with routes. -/
inductive RouteWork where
  | check (domain : String) (host path : Option String)
  | create (domain space : String) (host path : Option String)
  | map (application domain : String) (host path : Option String)
  | unmap (application domain : String) (host path : Option String)
  | delete (domain : String) (host path : Option String)
  | list (level : Level)
  | deleteOrphaned

/-- One piece of work, done by an orchestrator of its own. The surroundings are all of the world but
the platform. -/
structure Turn (τ : Type) where
  orchestrator : Orchestrator τ
  work : RouteWork
  surroundings : World Unit τ

def World.around {σ τ : Type} (surroundings : World Unit τ) (s : σ) : World σ τ :=
  { surroundings with platform := s }

section Turns

variable {σ τ : Type} [Platform σ τ] [Add τ] [Sub τ] [OfNat τ 0] [LE τ] [LT τ] [DecidableLE τ]
  [DecidableLT τ]

def Orchestrator.perform (o : Orchestrator τ) : RouteWork → Run σ τ Reply
  | .check domain host path => return .flag (← o.check domain host path)
  | .create domain space host path => return .route (← o.create domain space host path)
  | .map application domain host path => return .route (← o.map application domain host path)
  | .unmap application domain host path => do
    o.unmap application domain host path
    return .done
  | .delete domain host path => do
    o.delete domain host path
    return .done
  | .list level => return .records (← o.list level)
  | .deleteOrphaned => return .ids (← o.deleteOrphanedRoutes)

namespace Turn

/-- What a turn answers with on a platform. -/
def answer (t : Turn τ) (s : σ) : Except (Failure τ) Reply :=
  ((t.orchestrator.perform t.work).run (t.surroundings.around s)).1

/-- What a turn leaves of a platform. -/
def after (t : Turn τ) (s : σ) : σ :=
  ((t.orchestrator.perform t.work).run (t.surroundings.around s)).2.platform

/-- The platform after some turns. -/
def afterAll (s : σ) (turns : List (Turn τ)) : σ := turns.foldl (fun s t => t.after s) s

theorem asks_perform (o : Orchestrator τ) (work : RouteWork) : Asks (o.perform (σ := σ) work) := by
  have done {α : Type} (a : α) : Asks (pure a : Run σ τ α) := asks_composed.pure a
  have h := asks_operations (σ := σ) (τ := τ)
  cases work with
  | check domain host path => exact (h.lookups.check o _ _ _).bind fun _ => done _
  | create domain space host path => exact (h.create o _ _ _ _).bind fun _ => done _
  | map application domain host path => exact (h.map o _ _ _ _).bind fun _ => done _
  | unmap application domain host path => exact (h.unmap o _ _ _ _).bind fun _ => done _
  | delete domain host path => exact (h.delete o _ _ _).bind fun _ => done _
  | list level => exact (asks_composed.list asks_page o level).bind fun _ => done _
  | deleteOrphaned =>
    have listed := asks_composed.listAll (asks_page (σ := σ))
    have found := asks_composed.listFirst (asks_page (σ := σ))
    exact (h.deleteOrphanedRoutes o (fun _ => listed _ _) fun _ => found _ _).bind fun _ => done _

theorem after_eq_replay (t : Turn τ) (s : σ) : ∃ requests, t.after s = replay s requests :=
  asks_perform t.orchestrator t.work (t.surroundings.around s)

theorem afterAll_eq_replay (turns : List (Turn τ)) (s : σ) :
    ∃ requests, afterAll s turns = replay s requests := by
  induction turns generalizing s with
  | nil => exact ⟨[], rfl⟩
  | cons t turns ih =>
    obtain ⟨first, hfirst⟩ := t.after_eq_replay s
    obtain ⟨rest, hrest⟩ := ih (t.after s)
    refine ⟨first ++ rest, ?_⟩
    rw [replay_append, ← hfirst, ← hrest]
    rfl

end Turn

end Turns

end PlatformRoutes
