import PlatformRoutes.Orchestrator
import PlatformRoutes.Proofs.Polling

namespace PlatformRoutes

namespace Store

variable {τ : Type} {s : Store τ} {t : JobTrack} {jobId routeId : String} {n : ℕ}

/-- The name of a job that is given out while some number is the next one. -/
def jobName (number : ℕ) : String := "job" ++ "-" ++ toString number

/-- The platform once the deletion of a route has been asked for. -/
def deleting (s : Store τ) (routeId : String) : Store τ :=
  { s with
    calls := s.calls ++ [.deleteRoute routeId]
    nextId := s.nextId + 1
    jobs := s.jobs.put (s.deleteTrack (jobName s.nextId) routeId)
    deleteScripts := s.deleteScripts.erase routeId }

theorem run_deleteRoute (h : s.routes.contains routeId = true) :
    (deleteRoute routeId).run s =
      (.ok ⟨jobName s.nextId, .queued, none⟩, s.deleting routeId) := by
  rw [deleteRoute, run_log_get]
  simp only [h, Bool.not_true, Bool.false_eq_true, if_false]
  rfl

theorem run_deleteRoute_unknown (h : s.routes.contains routeId = false) :
    (deleteRoute routeId).run s =
      (.error routeNotFound, { s with calls := s.calls ++ [.deleteRoute routeId] }) := by
  rw [deleteRoute, run_log_get]
  simp only [h, Bool.not_false, if_true]
  exact run_bind_error rfl

theorem deleteTrack_id (s : Store τ) (jobId routeId : String) :
    (s.deleteTrack jobId routeId).id = jobId := by
  unfold deleteTrack
  cases s.deleteScripts.find? routeId <;> rfl

theorem deleteTrack_route (s : Store τ) (jobId routeId : String) :
    (s.deleteTrack jobId routeId).route = some routeId := by
  unfold deleteTrack
  cases s.deleteScripts.find? routeId <;> rfl

theorem find?_deleting (s : Store τ) (routeId : String) :
    (s.deleting routeId).jobs.find? (jobName s.nextId) =
      some (s.deleteTrack (jobName s.nextId) routeId) := by
  rw [deleting, Register.find?_put]
  exact if_pos (deleteTrack_id s _ routeId)

/-- A look that does not show a job finished leaves everything but the job as it is. -/
theorem getJob_pending (ht : s.jobs.find? jobId = some t) (h : t.current.status ≠ .finished) :
    ((getJob jobId).run s).2 =
      { s with calls := s.calls ++ [.getJob jobId], jobs := s.jobs.put t.advance } := by
  rw [run_getJob ht, look_pending h]

theorem find?_put_advance (ht : s.jobs.find? jobId = some t) :
    (s.jobs.put t.advance).find? jobId = some t.advance := by
  rw [Register.find?_put]
  exact if_pos ((JobTrack.advance_id t).trans (Register.find?_eq_some_iff.mp ht).2)

theorem lookedAt_pending (ht : s.jobs.find? jobId = some t)
    (h : ∀ k < n, (t.shown k).status ≠ .finished) :
    ∃ jobs, s.lookedAt jobId n =
      { s with calls := s.calls ++ List.replicate n (.getJob jobId), jobs := jobs } := by
  induction n generalizing s t with
  | zero =>
    refine ⟨s.jobs, ?_⟩
    simp only [lookedAt, List.replicate_zero, List.append_nil]
  | succ n ih =>
    have hfirst := getJob_pending ht (h 0 (by omega))
    obtain ⟨jobs, hrest⟩ := ih
      (s := { s with calls := s.calls ++ [.getJob jobId], jobs := s.jobs.put t.advance })
      (find?_put_advance ht) fun k hk => h (k + 1) (by omega)
    refine ⟨jobs, ?_⟩
    rw [lookedAt, hfirst, hrest, List.replicate_succ]
    simp only [List.append_assoc, List.singleton_append]

/-- The look that shows a deletion finished takes the route away. -/
theorem lookedAt_finished (ht : s.jobs.find? jobId = some t) (hr : t.route = some routeId)
    (h : ∀ k < n, (t.shown k).status ≠ .finished) (hf : (t.shown n).status = .finished) :
    ∃ jobs, s.lookedAt jobId (n + 1) =
      { s.dropRoute routeId with
        calls := s.calls ++ List.replicate (n + 1) (.getJob jobId)
        jobs := jobs } := by
  induction n generalizing s t with
  | zero =>
    refine ⟨s.jobs.put { t.advance with route := none }, ?_⟩
    have hf : t.current.status = .finished := hf
    rw [lookedAt, lookedAt, run_getJob ht, look_dropping hf hr]
    rfl
  | succ n ih =>
    have hfirst := getJob_pending ht (h 0 (by omega))
    obtain ⟨jobs, hrest⟩ := ih
      (s := { s with calls := s.calls ++ [.getJob jobId], jobs := s.jobs.put t.advance })
      (find?_put_advance ht) (t.advance_route.trans hr) (fun k hk => h (k + 1) (by omega)) hf
    refine ⟨jobs, ?_⟩
    rw [lookedAt, hfirst, hrest, List.replicate_succ (n := n + 1)]
    simp only [dropRoute, List.append_assoc, List.singleton_append]

end Store

namespace Poller

variable {p : Poller ℚ} {t : JobTrack} {interval limit cost : ℚ} {n : ℕ}

/-- The number of looks that waiting for a job takes. -/
def lastLook (t : JobTrack) (interval limit cost : ℚ) : ℕ :=
  match (List.range (lookLimit interval limit cost)).find? fun k =>
    (t.shown k).status.isTerminal with
  | some k => k + 1
  | none => lookLimit interval limit cost

theorem lastLook_isLeast (t : JobTrack) (limit : ℚ) (hpos : 0 < interval + cost) :
    IsLeast (stops t interval cost limit) (lastLook t interval limit cost) := by
  have hlimit := lookLimit_isLeast limit hpos
  unfold lastLook
  split
  · rename_i k h
    obtain ⟨hterminal, hk, hopen⟩ := List.find?_range_eq_some.mp h
    have hk : k < lookLimit interval limit cost := List.mem_range.mp hk
    refine stops_at_terminal hlimit ⟨⟨by omega, hterminal⟩, fun m hm => ?_⟩ hk
    by_contra hlt
    have hm' := hopen (m - 1) (by have := hm.1; omega)
    rw [hm.2] at hm'
    cases hm'
  · rename_i h
    refine stops_at_limit hlimit fun k hk => ?_
    simpa using List.find?_eq_none.mp h k (List.mem_range.mpr hk)

/-- The answer that a wait for a job ends with. -/
def lastAnswer (p : Poller ℚ) (cost : ℚ) (t : JobTrack) : Job :=
  t.shown (lastLook t p.interval p.timeout cost - 1)

/-- Why waiting for a job fails, if it does. -/
def waitFailure (p : Poller ℚ) (cost : ℚ) (t : JobTrack) : Option (Failure ℚ) :=
  match (p.lastAnswer cost t).status with
  | .finished => none
  | .failed => some (failureOf (p.lastAnswer cost t))
  | .queued | .running => some (.pollTimeout t.id p.timeout)

/-- The first terminal answer that a job shows, where the poller has not given up before it. -/
def Sees (p : Poller ℚ) (cost : ℚ) (t : JobTrack) (job : Job) : Prop :=
  ∃ first last : ℕ,
    IsLeast {k : ℕ | 1 ≤ k ∧ (t.shown (k - 1)).status.isTerminal = true} first ∧
    IsLeast {k : ℕ | 1 ≤ k ∧ p.timeout ≤ k * cost + (k - 1) * p.interval} last ∧
    first ≤ last ∧ t.shown (first - 1) = job

/-- The first terminal answer that a job shows says that it has finished, and the poller has not
given up before it. -/
def SeesFinished (p : Poller ℚ) (cost : ℚ) (t : JobTrack) : Prop :=
  ∃ first last : ℕ,
    IsLeast {k : ℕ | 1 ≤ k ∧ (t.shown (k - 1)).status.isTerminal = true} first ∧
    IsLeast {k : ℕ | 1 ≤ k ∧ p.timeout ≤ k * cost + (k - 1) * p.interval} last ∧
    first ≤ last ∧ (t.shown (first - 1)).status = .finished

theorem seesFinished_iff :
    p.SeesFinished cost t ↔ ∃ job, p.Sees cost t job ∧ job.status = .finished := by
  constructor
  · rintro ⟨first, last, hfirst, hlast, hle, hfinished⟩
    exact ⟨_, ⟨first, last, hfirst, hlast, hle, rfl⟩, hfinished⟩
  · rintro ⟨_, ⟨first, last, hfirst, hlast, hle, rfl⟩, hfinished⟩
    exact ⟨first, last, hfirst, hlast, hle, hfinished⟩

theorem sees_lastAnswer (hpos : 0 < p.interval + cost)
    (hterminal : (p.lastAnswer cost t).status.isTerminal = true) :
    p.Sees cost t (p.lastAnswer cost t) := by
  have hleast := lastLook_isLeast t p.timeout hpos
  have hlimit := lookLimit_isLeast p.timeout hpos
  refine ⟨_, _, ⟨⟨hleast.1.1, hterminal⟩, fun k hk => ?_⟩, hlimit, ?_, rfl⟩
  · exact hleast.2 ⟨hk.1, .inl hk.2⟩
  · exact hleast.2 ⟨hlimit.1.1, .inr hlimit.1.2⟩

/-- What a poller sees is what its wait ends with. -/
theorem Sees.eq_lastAnswer {job : Job} (hpos : 0 < p.interval + cost) (h : p.Sees cost t job) :
    p.lastAnswer cost t = job := by
  obtain ⟨first, last, hfirst, hlast, hle, hjob⟩ := h
  rw [lastAnswer, (lastLook_isLeast t p.timeout hpos).unique (stops_at_terminal hlast hfirst hle)]
  exact hjob

theorem waitFailure_eq_none :
    p.waitFailure cost t = none ↔ (p.lastAnswer cost t).status = .finished := by
  unfold waitFailure
  cases (p.lastAnswer cost t).status <;> simp

theorem waitFailure_eq_none_iff (hpos : 0 < p.interval + cost) :
    p.waitFailure cost t = none ↔ p.SeesFinished cost t := by
  rw [waitFailure_eq_none, seesFinished_iff]
  constructor
  · intro h
    have hterminal : (p.lastAnswer cost t).status.isTerminal = true := by
      rw [h]
      rfl
    exact ⟨_, sees_lastAnswer hpos hterminal, h⟩
  · rintro ⟨job, hsees, hfinished⟩
    rw [hsees.eq_lastAnswer hpos]
    exact hfinished

theorem conclusion_lastAnswer (p : Poller ℚ) (cost : ℚ) (t : JobTrack) (attempts : ℕ) :
    (conclusion t.id p.timeout (p.lastAnswer cost t) attempts).1 =
      match p.waitFailure cost t with
      | none => .ok (p.lastAnswer cost t)
      | some f => .error f := by
  unfold conclusion waitFailure
  cases (p.lastAnswer cost t).status <;> simp

/-- No answer before the last one that is looked at says that the job has finished. -/
theorem not_finished_before (h : IsLeast (stops t interval cost limit) n) {k : ℕ}
    (hk : k < n - 1) : (t.shown k).status ≠ .finished := by
  intro hf
  have hstop : k + 1 ∈ stops t interval cost limit := by
    refine ⟨by omega, .inl ?_⟩
    rw [Nat.add_sub_cancel, hf]
    rfl
  have := h.2 hstop
  omega

/-- A wait for a failed job or for too long is one that other deletions survive. -/
theorem waitFailure_isContained {f : Failure ℚ} (h : p.waitFailure cost t = some f) :
    f.isContained = true := by
  unfold waitFailure at h
  split at h
  · cases h
  · obtain rfl := Option.some.inj h
    unfold failureOf
    split <;> rfl
  · obtain rfl := Option.some.inj h
    rfl
  · obtain rfl := Option.some.inj h
    rfl

end Poller

namespace Orchestrator

variable {o : Orchestrator ℚ} {w : World (Store ℚ) ℚ} {r : Route}

/-- The platform after a deletion that was waited for. The route is gone if the wait did not fail. -/
def afterDeletion (s : Store ℚ) (routeId : String) (failure : Option (Failure ℚ)) : Store ℚ :=
  match failure with
  | none => (s.deleting routeId).dropRoute routeId
  | some _ => s.deleting routeId

/-- The looks of a wait for a deletion leave the job moved on, and the route gone if it finished. -/
theorem lookedAt_deleting {p : Poller ℚ} {cost : ℚ} (s : Store ℚ) (routeId : String)
    (hpos : 0 < p.interval + cost) :
    ∃ jobs looks, (s.deleting routeId).lookedAt (Store.jobName s.nextId)
        (Poller.lastLook (s.deleteTrack (Store.jobName s.nextId) routeId) p.interval p.timeout cost) =
      { afterDeletion s routeId
          (p.waitFailure cost (s.deleteTrack (Store.jobName s.nextId) routeId)) with
        calls := (s.deleting routeId).calls ++
          List.replicate looks (.getJob (Store.jobName s.nextId))
        jobs := jobs } := by
  have ht := Store.find?_deleting s routeId
  have hleast := Poller.lastLook_isLeast
    (s.deleteTrack (Store.jobName s.nextId) routeId) p.timeout hpos
  have hbefore := fun k => Poller.not_finished_before hleast (k := k)
  obtain ⟨m, hm⟩ := Nat.exists_eq_add_of_le' hleast.1.1
  rw [hm, Nat.add_sub_cancel] at hbefore
  have hanswer : (p.lastAnswer cost (s.deleteTrack (Store.jobName s.nextId) routeId)) =
      (s.deleteTrack (Store.jobName s.nextId) routeId).shown m := by
    rw [Poller.lastAnswer, hm, Nat.add_sub_cancel]
  rw [hm]
  cases hf : p.waitFailure cost (s.deleteTrack (Store.jobName s.nextId) routeId) with
  | none =>
    rw [Poller.waitFailure_eq_none, hanswer] at hf
    obtain ⟨jobs, h⟩ := Store.lookedAt_finished ht (Store.deleteTrack_route s _ routeId) hbefore hf
    exact ⟨jobs, m + 1, h⟩
  | some f =>
    have hopen : ∀ k < m + 1, ((s.deleteTrack (Store.jobName s.nextId) routeId).shown k).status ≠
        .finished := by
      intro k hk hfin
      rcases Nat.lt_succ_iff_lt_or_eq.mp hk with hk | rfl
      · exact hbefore k hk hfin
      · rw [← hanswer, ← Poller.waitFailure_eq_none, hf] at hfin
        cases hfin
    obtain ⟨jobs, h⟩ := Store.lookedAt_pending ht hopen
    exact ⟨jobs, m + 1, h⟩

/-- The wait for a deletion that has just been asked for. -/
theorem awaitJob_ends {p : Poller ℚ} (routeId : String) (hcancel : w.cancelAt = none)
    (hc : 0 ≤ w.fetchCost) (hpos : 0 < p.interval + w.fetchCost) {failure : Option (Failure ℚ)}
    (hf : p.waitFailure w.fetchCost
      (w.platform.deleteTrack (Store.jobName w.platform.nextId) routeId) = failure) :
    ∃ v jobs looks answer,
      Ends (p.awaitJob ⟨Store.jobName w.platform.nextId, .queued, none⟩)
        { w with platform := w.platform.deleting routeId }
        (match failure with | none => .ok answer | some f => .error f) v ∧
      v.platform = { afterDeletion w.platform routeId failure with
        calls := (w.platform.deleting routeId).calls ++
          List.replicate looks (.getJob (Store.jobName w.platform.nextId))
        jobs := jobs } ∧
      v.fetchCost = w.fetchCost ∧ v.cancelAt = none := by
  subst hf
  obtain ⟨jobs, looks, hlooked⟩ := lookedAt_deleting w.platform routeId hpos
  have hwaited := Poller.awaitCompletion_ends
    (w := { w with platform := w.platform.deleting routeId }) p none none
    (Store.find?_deleting w.platform routeId) hcancel hc
    (Poller.lastLook_isLeast _ p.timeout hpos)
  have hconclusion := Poller.conclusion_lastAnswer p w.fetchCost
    (w.platform.deleteTrack (Store.jobName w.platform.nextId) routeId)
    (Poller.lastLook (w.platform.deleteTrack (Store.jobName w.platform.nextId) routeId)
      p.interval p.timeout w.fetchCost)
  rw [Store.deleteTrack_id, Poller.lastAnswer] at hconclusion
  simp only [Option.getD_none] at hwaited
  rw [hconclusion] at hwaited
  exact ⟨_, jobs, looks, _, hwaited, hlooked, rfl, hcancel⟩

/-- Deleting a route asks for its deletion once and then only looks at the job. -/
theorem deleteRoute_ends (hr : w.platform.routes.contains r.id = true)
    (hcancel : w.cancelAt = none) (hc : 0 ≤ w.fetchCost)
    (hpos : 0 < o.poller.interval + w.fetchCost) {failure : Option (Failure ℚ)}
    (hf : o.poller.waitFailure w.fetchCost
      (w.platform.deleteTrack (Store.jobName w.platform.nextId) r.id) = failure) :
    ∃ v jobs looks,
      Ends (o.deleteRoute r) w (match failure with | none => .ok () | some f => .error f) v ∧
      v.platform = { afterDeletion w.platform r.id failure with
        calls := (w.platform.deleting r.id).calls ++
          List.replicate looks (.getJob (Store.jobName w.platform.nextId))
        jobs := jobs } ∧
      v.fetchCost = w.fetchCost ∧ v.cancelAt = none := by
  have hasked : Ends (Run.deleteRoute r.id) w
      (.ok ⟨Store.jobName w.platform.nextId, .queued, none⟩)
      { w with platform := w.platform.deleting r.id } :=
    Ends.onPlatform (Store.run_deleteRoute hr)
  obtain ⟨v, jobs, looks, answer, hwaited, hv⟩ := awaitJob_ends r.id hcancel hc hpos hf
  cases failure with
  | none => exact ⟨_, jobs, looks, hasked.bind (hwaited.bind (Ends.emit _ v)), hv⟩
  | some f => exact ⟨v, jobs, looks, hasked.bind hwaited.bind_error, hv⟩

end Orchestrator

end PlatformRoutes
