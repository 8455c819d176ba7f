import PlatformRoutes.Proofs.Lookup

namespace PlatformRoutes

/-- The events of a wait. -/
inductive Event.OfWait : Event → Prop where
  | poll (jobId : String) (status : JobStatus) (attempt : Nat) : OfWait (.jobPoll jobId status attempt)
  | finished (jobId : String) (attempts : Nat) : OfWait (.jobFinished jobId attempts)
  | failed (jobId : String) (attempts : Nat) : OfWait (.jobFailed jobId attempts)
  | timeout (jobId : String) (attempts : Nat) : OfWait (.jobTimeout jobId attempts)

variable {σ τ : Type} [Platform σ τ] [Add τ]

section Waits

variable [Sub τ] [OfNat τ 0] [LE τ] [LT τ] [DecidableLE τ] [DecidableLT τ]
  {P : ∀ {α : Type}, Run σ τ α → Prop} (h : Chained P)
  (emit : ∀ event, Event.OfWait event → P (Run.emit event))
  (sleep : ∀ duration, P (Run.sleep duration))
include h emit sleep

/-- A property of sleeps, of events and of looks at a job is one of every wait for the job. -/
theorem Chained.poll {jobId : String} (look : P (Run.getJob (σ := σ) jobId))
    (interval limit deadline : τ) (fuel attempts : Nat) :
    P (Poller.poll (σ := σ) jobId interval limit deadline fuel attempts) := by
  induction fuel generalizing attempts with
  | zero => exact h.throw .stalled
  | succ fuel ih =>
    apply h.bind look
    intro job
    apply h.bind (emit _ (.poll _ _ _))
    intro _
    cases job.status with
    | finished => exact h.bind (emit _ (.finished _ _)) fun _ => h.pure job
    | failed => exact h.bind (emit _ (.failed _ _)) fun _ => h.throw _
    | queued | running =>
      apply h.surroundings (fun _ _ _ => rfl)
      intro w
      dsimp only
      split
      · exact h.bind (emit _ (.timeout _ _)) fun _ => h.throw _
      · exact h.bind (sleep _) fun _ => ih (attempts + 1)

theorem Chained.awaitJob (p : Poller τ) {job : Job} (look : P (Run.getJob (σ := σ) job.id)) :
    P (p.awaitJob (σ := σ) job) := by
  unfold Poller.awaitJob
  cases job.status with
  | finished => exact h.pure job
  | failed => exact h.throw _
  | queued | running =>
    exact h.surroundings (fun _ _ _ => rfl) fun w =>
      h.poll emit sleep look _ _ _ w.patience 0

end Waits

/-- A property of operations that counts how much they may add to the platform: one for a route and
one for an association. Whatever has it of its parts, has it of every operation on routes. -/
structure Operations (P : Nat → ∀ {α : Type}, Run σ τ α → Prop) : Prop where
  lookups : Lookups (@P 0)
  bind : ∀ {α β : Type} {c d : Nat} {x : Run σ τ α} {f : α → Run σ τ β},
    P c x → (∀ a, P d (f a)) → P (c + d) (x >>= f)
  more : ∀ {α : Type} {c : Nat} {x : Run σ τ α}, P c x → P (c + 1) x
  emit : ∀ event, P 0 (Run.emit event)
  sleep : ∀ duration, P 0 (Run.sleep duration)
  getJob : ∀ jobId, P 0 (Run.getJob (σ := σ) jobId)
  createRoute : ∀ domainId spaceId host path,
    P 1 (Run.createRoute (σ := σ) domainId spaceId host path)
  deleteRoute : ∀ routeId, P 0 (Run.deleteRoute (σ := σ) routeId)
  associateRoute : ∀ applicationId routeId,
    P 1 (Run.associateRoute (σ := σ) applicationId routeId)
  removeRoute : ∀ applicationId routeId, P 0 (Run.removeRoute (σ := σ) applicationId routeId)

namespace Operations

variable {P : Nat → ∀ {α : Type}, Run σ τ α → Prop} (h : Operations P) (o : Orchestrator τ)
include h

/-- A part that adds nothing may come first. -/
theorem after {α β : Type} {d : Nat} {x : Run σ τ α} {f : α → Run σ τ β} (hx : P 0 x)
    (hf : ∀ a, P d (f a)) : P d (x >>= f) := by
  have hbind := h.bind hx hf
  rwa [Nat.zero_add] at hbind

theorem resolveOrCreateRoute (domain : Domain) (host path : Option String) (spaceId : String) :
    P 1 (Run.resolveOrCreateRoute (σ := σ) domain host path spaceId) := by
  refine h.after (h.lookups.findRoute domain host path) fun found => ?_
  cases found with
  | none => exact h.createRoute _ _ _ _
  | some route => exact h.more (h.lookups.pure route)

theorem create (domain space : String) (host path : Option String) :
    P 1 (o.create (σ := σ) domain space host path) :=
  h.after (h.lookups.resolveSpace _ _) fun _ => h.after (h.lookups.resolveDomain _ _) fun _ =>
    h.bind (h.resolveOrCreateRoute _ _ _ _) fun route =>
      h.after (h.emit _) fun _ => h.lookups.pure route

theorem map (application domain : String) (host path : Option String) :
    P 2 (o.map (σ := σ) application domain host path) :=
  h.after (h.lookups.requireSpace o) fun _ =>
    h.after (h.lookups.resolveApplication _ _) fun _ =>
      h.after (h.lookups.resolveDomain _ _) fun _ =>
        h.bind (h.resolveOrCreateRoute _ _ _ _) fun route =>
          h.bind (h.associateRoute _ _) fun _ =>
            h.after (h.emit _) fun _ => h.lookups.pure route

theorem unmap (application domain : String) (host path : Option String) :
    P 0 (o.unmap (σ := σ) application domain host path) :=
  h.after (h.lookups.requireSpace o) fun _ =>
    h.after (h.lookups.resolveApplication _ _) fun _ =>
      h.after (h.lookups.resolveDomain _ _) fun _ =>
        h.after (h.lookups.resolveRoute _ _ _) fun _ =>
          h.after (h.removeRoute _ _) fun _ => h.emit _

variable [Sub τ] [OfNat τ 0] [LE τ] [LT τ] [DecidableLE τ] [DecidableLT τ]

theorem deleteOf (route : Route) : P 0 (o.deleteRoute (σ := σ) route) :=
  h.after (h.deleteRoute _) fun job =>
    h.after (h.lookups.awaitJob (fun event _ => h.emit event) h.sleep o.poller (h.getJob job.id))
      fun _ => h.emit _

theorem delete (domain : String) (host path : Option String) :
    P 0 (o.delete (σ := σ) domain host path) :=
  h.after (h.lookups.resolveDomain _ _) fun _ => h.after (h.lookups.resolveRoute _ _ _) fun route =>
    h.deleteOf o route

section Sweep

variable
  (spaceRoutes : ∀ spaceId, P 0 (Run.listAll (σ := σ) .spaceRoutes [(.spaceId, spaceId)]))
  (application : ∀ routeId, P 0 (Run.listFirst (σ := σ) .routeApplications [(.routeId, routeId)]))
include application

theorem deleteUnused (route : Route) : P 0 (o.deleteUnused (σ := σ) route) := by
  refine h.after (application route.id) fun found => ?_
  cases found with
  | some ref => exact h.after (h.emit _) fun _ => h.lookups.pure false
  | none => exact h.after (h.deleteOf o route) fun _ => h.lookups.pure true

theorem sweepRoute (sofar : Orchestrator.Sweep τ) (route : Route) :
    P 0 (o.sweepRoute (σ := σ) sofar route) := by
  unfold Orchestrator.sweepRoute
  split
  · refine h.after (h.lookups.attempt (h.deleteUnused o application route)) fun outcome => ?_
    split
    · exact h.lookups.pure _
    · exact h.lookups.pure _
    · split
      · exact h.lookups.pure _
      · exact h.lookups.throw _
  · exact h.after (h.emit _) fun _ => h.lookups.pure _

include spaceRoutes

theorem deleteOrphanedRoutes : P 0 (o.deleteOrphanedRoutes (σ := σ)) := by
  refine h.after (h.lookups.requireSpace o) fun spaceId =>
    h.after (spaceRoutes spaceId) fun routes =>
      h.after (h.lookups.foldlM (h.sweepRoute o application) routes _) fun sweep => ?_
  split
  · exact h.lookups.pure _
  · exact h.lookups.throw _

end Sweep

end Operations

end PlatformRoutes
