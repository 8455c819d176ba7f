import PlatformRoutes.Proofs.Ends
import PlatformRoutes.Proofs.Operations

namespace PlatformRoutes

section Telling

variable {σ τ α β : Type}

/-- An operation takes back nothing that was told before it. -/
def OnlyTells (x : Run σ τ α) : Prop := ∀ w, w.events <+: (x.run w).2.events

theorem onlyTells_composed : Composed (OnlyTells (σ := σ) (τ := τ)) where
  pure _ := fun _ => List.prefix_rfl
  throw _ := fun _ => List.prefix_rfl
  bind := by
    intro α β x f hx hf w
    have hfirst := hx w
    cases hr : x.run w with
    | mk outcome u =>
      rw [hr] at hfirst
      cases outcome with
      | ok a =>
        rw [run_bind_ok hr]
        exact hfirst.trans (hf a u)
      | error e =>
        rw [run_bind_error hr]
        exact hfirst
  attempt h := h
  surroundings _ h := fun w => h w w

theorem onlyTells_of_kept {x : Run σ τ α} (h : ∀ w, (x.run w).2.events = w.events) : OnlyTells x := by
  intro w
  exact ⟨[], by rw [h, List.append_nil]⟩

theorem OnlyTells.of_ends {x : Run σ τ α} {outcome : Except (Failure τ) α} {v w : World σ τ}
    (hx : OnlyTells x) (h : Ends x w outcome v) : w.events <+: v.events := by
  obtain ⟨enough, hrun⟩ := h
  have hgrown := hx { w with patience := enough }
  rwa [hrun enough (Nat.le_refl enough)] at hgrown

theorem onlyTells_emit (event : Event) : OnlyTells (Run.emit (σ := σ) (τ := τ) event) :=
  fun _ => List.prefix_append _ _

theorem onlyTells_onPlatform (act : Act σ τ α) : OnlyTells (Run.onPlatform act) :=
  onlyTells_of_kept fun _ => rfl

/-- The event was told on the way from one world to another. -/
def World.Told (w v : World σ τ) (event : Event) : Prop :=
  ∃ evs, v.events = w.events ++ evs ∧ event ∈ evs

theorem World.Told.later {u v w : World σ τ} {event : Event} (h : w.Told u event)
    (hlater : u.events <+: v.events) : w.Told v event := by
  obtain ⟨evs, hevs, hmem⟩ := h
  obtain ⟨rest, hrest⟩ := hlater
  exact ⟨evs ++ rest, by rw [← hrest, hevs, List.append_assoc], List.mem_append_left _ hmem⟩

theorem World.Told.earlier {u v w : World σ τ} {event : Event} (h : u.Told v event)
    (hearlier : w.events <+: u.events) : w.Told v event := by
  obtain ⟨evs, hevs, hmem⟩ := h
  obtain ⟨before, hbefore⟩ := hearlier
  exact ⟨before ++ evs, by rw [hevs, ← hbefore, List.append_assoc], List.mem_append_right _ hmem⟩

/-- What is told by an operation that begins with others. -/
theorem OnlyTells.told_bind {x : Run σ τ α} {f : α → Run σ τ β} {v w : World σ τ} {b : β}
    {event : Event} (hx : OnlyTells x) (h : (x >>= f).run w = (.ok b, v))
    (hf : ∀ a u, (f a).run u = (.ok b, v) → u.Told v event) : w.Told v event := by
  obtain ⟨a, u, hfirst, hrest⟩ := run_bind_eq_ok h
  have hgrown := hx w
  rw [hfirst] at hgrown
  exact (hf a u hrest).earlier hgrown

theorem told_emit {v w : World σ τ} {event : Event} (h : (Run.emit event).run w = (.ok (), v)) :
    w.Told v event := by
  cases h
  exact ⟨[event], rfl, List.mem_singleton_self event⟩

variable [Platform σ τ]

theorem onlyTells_listFirst (routeId : String) :
    OnlyTells (Run.listFirst (σ := σ) .routeApplications [(.routeId, routeId)]) :=
  onlyTells_composed.listFirst (fun _ _ _ => onlyTells_onPlatform _) _ _

variable [Add τ]

theorem onlyTells_operations : Operations (σ := σ) (τ := τ) fun _ => OnlyTells where
  lookups := onlyTells_composed.lookups fun _ _ _ => onlyTells_onPlatform _
  bind := onlyTells_composed.bind
  more h := h
  emit := onlyTells_emit
  sleep duration := onlyTells_of_kept (events_sleep duration)
  getJob _ := onlyTells_composed.bind (onlyTells_of_kept fun _ => rfl) fun _ => onlyTells_onPlatform _
  createRoute _ _ _ _ := onlyTells_onPlatform _
  deleteRoute _ := onlyTells_onPlatform _
  associateRoute _ _ := onlyTells_onPlatform _
  removeRoute _ _ := onlyTells_onPlatform _

end Telling

theorem Failure.mem_record {τ : Type} (failures : List (String × Failure τ)) (id : String) (f : Failure τ) :
    id ∈ (Failure.record failures id f).map Prod.fst := by
  induction failures with
  | nil => exact List.mem_singleton_self id
  | cons e rest ih =>
    by_cases h : (e.1 == id) = true
    · rw [Failure.record, if_pos h, ← eq_of_beq h]
      exact List.mem_cons_self
    · rw [Failure.record, if_neg h]
      exact List.mem_cons_of_mem _ ih

namespace Orchestrator

/-- What a sweep tells of a route that it deletes, and of one that it passes over. -/
def deletedEvent (r : Route) : Event := .onRoute "route.deleted" r

def skippedEvent (r : Route) : Event := .onRoute "route.orphan_skipped" r

variable {σ τ : Type} [Platform σ τ] [Add τ] [Sub τ] [OfNat τ 0] [LE τ] [LT τ] [DecidableLE τ]
  [DecidableLT τ] {o : Orchestrator τ} {r : Route} {v w : World σ τ}

theorem deleteRoute_told (h : (o.deleteRoute r).run w = (.ok (), v)) : w.Told v (deletedEvent r) := by
  have hops := onlyTells_operations (σ := σ) (τ := τ)
  apply (hops.deleteRoute r.id).told_bind h
  intro job u hwait
  have hawait := hops.lookups.awaitJob (fun event _ => hops.emit event) hops.sleep o.poller
    (hops.getJob job.id)
  apply hawait.told_bind hwait
  intro _ t hemit
  exact told_emit hemit

theorem deleteUnused_told {b : Bool} (h : (o.deleteUnused r).run w = (.ok b, v)) :
    w.Told v (if b then deletedEvent r else skippedEvent r) := by
  apply (onlyTells_listFirst r.id).told_bind h
  intro found u hrest
  cases found with
  | some app =>
    obtain ⟨_, t, hemit, hdone⟩ := run_bind_eq_ok hrest
    cases hdone
    exact told_emit hemit
  | none =>
    obtain ⟨_, t, hdelete, hdone⟩ := run_bind_eq_ok hrest
    cases hdone
    exact deleteRoute_told hdelete

/-- What a sweep tells of a route, by how it goes on. -/
theorem sweepRoute_told {sofar next : Sweep τ} (h : (o.sweepRoute sofar r).run w = (.ok next, v)) :
    r.id ∈ next.deleted ∧ w.Told v (deletedEvent r) ∨
      next = sofar ∧ w.Told v (skippedEvent r) ∨
      next.deleted = sofar.deleted ∧ r.id ∈ next.failures.map Prod.fst := by
  unfold sweepRoute at h
  split at h
  · obtain ⟨tried, u, hattempt, hrest⟩ := run_bind_eq_ok h
    cases hattempt
    split at hrest
    · rename_i hok
      cases hrest
      refine .inl ⟨List.mem_append_right _ (List.mem_singleton_self _), ?_⟩
      exact deleteUnused_told (b := true) (Prod.ext hok rfl)
    · rename_i hok
      cases hrest
      exact .inr (.inl ⟨rfl, deleteUnused_told (b := false) (Prod.ext hok rfl)⟩)
    · split at hrest
      · cases hrest
        exact .inr (.inr ⟨rfl, Failure.mem_record _ _ _⟩)
      · cases hrest
  · obtain ⟨_, u, hemit, hdone⟩ := run_bind_eq_ok h
    cases hdone
    exact .inr (.inl ⟨rfl, told_emit hemit⟩)

end Orchestrator

end PlatformRoutes
