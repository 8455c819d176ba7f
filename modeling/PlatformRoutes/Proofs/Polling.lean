import Mathlib
import PlatformRoutes.Poller
import PlatformRoutes.Proofs.Ends
import PlatformRoutes.Proofs.Register
import PlatformRoutes.Store.Requests

namespace PlatformRoutes

/-- What a look at a job shows if some looks came before. The last answer repeats. -/
def JobTrack.shown : JobTrack → ℕ → Job
  | t, 0 => t.current
  | t, n + 1 => t.advance.shown n

theorem JobTrack.advance_id (t : JobTrack) : t.advance.id = t.id := by
  unfold JobTrack.advance
  split <;> rfl

theorem JobTrack.advance_route (t : JobTrack) : t.advance.route = t.route := by
  unfold JobTrack.advance
  split <;> rfl

namespace Store

variable {τ : Type} {s : Store τ} {t : JobTrack} {jobId routeId : String}

/-- The platform after some looks at a job. -/
def lookedAt (jobId : String) : ℕ → Store τ → Store τ
  | 0, s => s
  | n + 1, s => lookedAt jobId n ((getJob jobId).run s).2

/-- What an operation does after a request, it does on a platform whose record shows the request. -/
theorem run_log_get {α : Type} (request : Request) (next : Store τ → Act (Store τ) τ α)
    (s : Store τ) :
    (log request >>= fun _ => get >>= next).run s =
      (next { s with calls := s.calls ++ [request] }).run
        { s with calls := s.calls ++ [request] } := rfl

theorem run_getJob (h : s.jobs.find? jobId = some t) :
    (getJob jobId).run s =
      (.ok t.current, ({ s with calls := s.calls ++ [.getJob jobId] } : Store τ).look t) := by
  rw [getJob, run_log_get]
  dsimp only
  rw [h]
  rfl

theorem run_getJob_unknown (h : s.jobs.find? jobId = none) :
    (getJob jobId).run s =
      (.error unknownRequest, { s with calls := s.calls ++ [.getJob jobId] }) := by
  rw [getJob, run_log_get]
  dsimp only
  rw [h]
  rfl

/-- A look that does not show a job finished only moves the job on. -/
theorem look_pending (h : t.current.status ≠ .finished) :
    s.look t = { s with jobs := s.jobs.put t.advance } := by
  simp only [look, if_neg h]

/-- A look that shows a job finished takes its route away; a second one has none to take. -/
theorem look_dropping (h : t.current.status = .finished) (hroute : t.route = some routeId) :
    s.look t =
      ({ s with jobs := s.jobs.put { t.advance with route := none } } : Store τ).dropRoute routeId := by
  simp only [look, if_pos h, hroute]

theorem look_idle (h : t.current.status = .finished) (hroute : t.route = none) :
    s.look t = { s with jobs := s.jobs.put { t.advance with route := none } } := by
  simp only [look, if_pos h, hroute]

/-- A look changes nothing but jobs, routes and associations. -/
theorem look_frame (s : Store τ) (t : JobTrack) : ∃ jobs routes associations,
    s.look t = { s with jobs := jobs, routes := routes, associations := associations } := by
  by_cases h : t.current.status = .finished
  · cases hroute : t.route with
    | none => exact ⟨_, _, _, look_idle h hroute⟩
    | some routeId => exact ⟨_, _, _, look_dropping h hroute⟩
  · exact ⟨_, _, _, look_pending h⟩

/-- A job that was looked at stays where it was; once seen finished it takes nothing away anymore. -/
theorem look_jobs (s : Store τ) (t : JobTrack) : ∃ t', t'.id = t.id ∧
    t'.route = (if t.current.status = .finished then none else t.route) ∧
    (s.look t).jobs = s.jobs.put t' := by
  by_cases hfinished : t.current.status = .finished
  · rw [if_pos hfinished]
    refine ⟨{ t.advance with route := none }, t.advance_id, rfl, ?_⟩
    cases hroute : t.route with
    | none => rw [look_idle hfinished hroute]
    | some routeId =>
      rw [look_dropping hfinished hroute]
      rfl
  · rw [if_neg hfinished, look_pending hfinished]
    exact ⟨_, t.advance_id, t.advance_route, rfl⟩

theorem calls_look (s : Store τ) (t : JobTrack) : (s.look t).calls = s.calls := by
  obtain ⟨_, _, _, h⟩ := s.look_frame t
  rw [h]

theorem calls_getJob (jobId : String) (s : Store τ) :
    ((getJob jobId).run s).2.calls = s.calls ++ [.getJob jobId] := by
  cases h : s.jobs.find? jobId with
  | none => rw [run_getJob_unknown h]
  | some t => rw [run_getJob h, calls_look]

theorem calls_lookedAt (jobId : String) (n : ℕ) (s : Store τ) :
    (s.lookedAt jobId n).calls = s.calls ++ List.replicate n (.getJob jobId) := by
  induction n generalizing s with
  | zero => exact (List.append_nil _).symm
  | succ n ih =>
    rw [lookedAt, ih, calls_getJob, List.append_assoc, List.replicate_succ, List.singleton_append]

end Store

namespace Poller

/-- The time that some looks take with a full interval between each two. -/
def spent (interval cost : ℚ) (looks : ℕ) : ℚ := looks * cost + (looks - 1) * interval

/-- The looks after which there is no further one: the job is terminal, or the time is up. -/
def stops (t : JobTrack) (interval cost left : ℚ) : Set ℕ :=
  {k | 1 ≤ k ∧ ((t.shown (k - 1)).status.isTerminal = true ∨ left ≤ spent interval cost k)}

variable {t : JobTrack} {interval cost left : ℚ} {n : ℕ}

theorem spent_one (interval cost : ℚ) : spent interval cost 1 = cost := by
  simp [spent]

theorem spent_succ (interval cost : ℚ) (k : ℕ) :
    spent interval cost (k + 1) = spent interval cost k + (interval + cost) := by
  simp only [spent, Nat.cast_add, Nat.cast_one]
  ring

theorem mem_stops {k : ℕ} : k ∈ stops t interval cost left ↔
    1 ≤ k ∧ ((t.shown (k - 1)).status.isTerminal = true ∨ left ≤ spent interval cost k) :=
  Iff.rfl

theorem one_mem_stops :
    1 ∈ stops t interval cost left ↔ t.current.status.isTerminal = true ∨ left ≤ cost := by
  rw [mem_stops, spent_one]
  exact and_iff_right (le_refl 1)

/-- While full intervals fit, the looks after the first are those of the job moved on. -/
theorem succ_mem_stops {k : ℕ} (hk : 1 ≤ k) : k + 1 ∈ stops t interval cost left ↔
    k ∈ stops t.advance interval cost (left - cost - interval) := by
  obtain ⟨m, rfl⟩ := Nat.exists_eq_add_of_le' hk
  have htime : left ≤ spent interval cost (m + 1 + 1) ↔
      left - cost - interval ≤ spent interval cost (m + 1) := by
    rw [spent_succ]
    constructor <;> intro h <;> linarith
  rw [mem_stops, mem_stops, htime]
  simp only [Nat.add_sub_cancel, JobTrack.shown, Nat.le_add_left, true_and]

/-- A first look that does not stop leaves one look less to the rest of the time. A pause that is
cut short is the last one, since the look after it finds the time used up. -/
theorem stops_succ (hc : 0 ≤ cost) (hn : 1 ≤ n)
    (h : IsLeast (stops t interval cost left) (n + 1)) :
    t.current.status.isTerminal = false ∧ cost < left ∧
      IsLeast (stops t.advance interval cost (left - cost - min interval (left - cost))) n ∧
      (left - cost < interval → n = 1) := by
  have hfirst : 1 ∉ stops t interval cost left := by
    intro h1
    have := h.2 h1
    omega
  rw [one_mem_stops, not_or, not_le, Bool.not_eq_true] at hfirst
  have hshort : left - cost < interval → n = 1 := by
    intro short
    have htwo : 2 ∈ stops t interval cost left := by
      refine mem_stops.mpr ⟨by omega, .inr ?_⟩
      rw [spent_succ, spent_one]
      linarith
    have := h.2 htwo
    omega
  refine ⟨hfirst.1, hfirst.2, ?_, hshort⟩
  rcases le_or_gt interval (left - cost) with full | short
  · rw [min_eq_left full]
    refine ⟨(succ_mem_stops hn).mp h.1, fun k hk => ?_⟩
    have := h.2 ((succ_mem_stops hk.1).mpr hk)
    omega
  · rw [min_eq_right short.le, hshort short, sub_self]
    exact ⟨one_mem_stops.mpr (.inr hc), fun k hk => hk.1⟩

/-- The pauses between some looks. Each is the interval, or what is left of the time if that is
less. -/
def pauses (interval cost left : ℚ) (looks : ℕ) : List ℚ :=
  (List.range (looks - 1)).map fun i : ℕ => min interval (left - (i + 1) * cost - i * interval)

theorem pauses_succ (hn : 1 ≤ n) (hshort : left - cost < interval → n = 1) :
    pauses interval cost left (n + 1) = min interval (left - cost) ::
      pauses interval cost (left - cost - min interval (left - cost)) n := by
  obtain ⟨m, rfl⟩ := Nat.exists_eq_add_of_le' hn
  simp only [pauses, Nat.add_sub_cancel, List.range_succ_eq_map, List.map_cons, List.map_map]
  congr 1
  · simp
  · rcases le_or_gt interval (left - cost) with full | short
    · rw [min_eq_left full]
      refine List.map_congr_left fun i _ => ?_
      simp only [Function.comp_apply, Nat.cast_succ]
      congr 1
      ring
    · obtain rfl : m = 0 := by
        have := hshort short
        omega
      rfl

/-- What the looks of a poller are recorded as. -/
def lookEvents (jobId : String) (t : JobTrack) (attempts looks : ℕ) : List Event :=
  (List.range looks).map fun i => .jobPoll jobId (t.shown i).status (attempts + i + 1)

theorem lookEvents_succ (jobId : String) (t : JobTrack) (attempts looks : ℕ) :
    lookEvents jobId t attempts (looks + 1) =
      .jobPoll jobId t.current.status (attempts + 1) ::
        lookEvents jobId t.advance (attempts + 1) looks := by
  simp only [lookEvents, List.range_succ_eq_map, List.map_cons, List.map_map]
  congr 1
  refine List.map_congr_left fun i _ => ?_
  simp only [Function.comp_apply, JobTrack.shown]
  congr 1
  omega

/-- What a poller makes of the last answer it gets: its outcome and the event that says so. -/
def conclusion (jobId : String) (limit : ℚ) (last : Job) (attempts : ℕ) :
    Except (Failure ℚ) Job × Event :=
  match last.status with
  | .finished => (.ok last, .jobFinished jobId attempts)
  | .failed => (.error (failureOf last), .jobFailed jobId attempts)
  | .queued | .running => (.error (.pollTimeout jobId limit), .jobTimeout jobId attempts)

theorem conclusion_pending {last : Job} (h : last.status.isTerminal = false) (jobId : String)
    (limit : ℚ) (attempts : ℕ) : conclusion jobId limit last attempts =
      (.error (.pollTimeout jobId limit), .jobTimeout jobId attempts) := by
  unfold conclusion
  cases hs : last.status with
  | finished | failed =>
    rw [hs] at h
    cases h
  | queued | running => rfl

theorem failureOf_eq (job : Job) : (failureOf job : Failure ℚ) =
    match job.details with
    | some e => .jobFailed e.code e.description e.errorCode
    | none => .jobFailed 0 ("Job " ++ job.id ++ " failed without error details") "" := by
  unfold failureOf
  cases job.details <;> rfl

/-- The world after some looks at a job, the last of which is the end of it. -/
def polled (w : World (Store ℚ) ℚ) (jobId : String) (t : JobTrack) (interval limit left : ℚ)
    (attempts looks : ℕ) : World (Store ℚ) ℚ :=
  { w with
    platform := w.platform.lookedAt jobId looks
    clock := w.clock + looks * w.fetchCost + (pauses interval w.fetchCost left looks).sum
    sleeps := w.sleeps ++ pauses interval w.fetchCost left looks
    events := w.events ++ (lookEvents jobId t attempts looks ++
      [(conclusion jobId limit (t.shown (looks - 1)) (attempts + looks)).2]) }

theorem pause_eq_min (interval left : ℚ) : pause interval left = min interval left := by
  unfold pause
  rcases le_or_gt interval left with h | h
  · rw [if_neg (not_lt.mpr h), min_eq_left h]
  · rw [if_pos h, min_eq_right h.le]

variable {w : World (Store ℚ) ℚ} {jobId : String} {limit deadline : ℚ} {attempts : ℕ}

theorem run_look (h : w.platform.jobs.find? jobId = some t) :
    (Run.getJob jobId).run w = (.ok t.current,
      { w with
        clock := w.clock + w.fetchCost
        platform := w.platform.lookedAt jobId 1 }) := by
  have hs : (Store.getJob jobId).run w.platform =
      (.ok t.current, w.platform.lookedAt jobId 1) := by
    rw [Store.lookedAt, Store.lookedAt, Store.run_getJob h]
  exact run_onPlatform (w := { w with clock := w.clock + w.fetchCost }) hs

/-- The world after a look, before anything is made of it. -/
def looked (w : World (Store ℚ) ℚ) (jobId : String) (t : JobTrack) (attempts : ℕ) :
    World (Store ℚ) ℚ :=
  { w with
    platform := w.platform.lookedAt jobId 1
    clock := w.clock + w.fetchCost
    events := w.events ++ [.jobPoll jobId t.current.status (attempts + 1)] }

/-- The world after a look and the pause that follows it. -/
def paused (w : World (Store ℚ) ℚ) (jobId : String) (t : JobTrack) (interval left : ℚ)
    (attempts : ℕ) : World (Store ℚ) ℚ :=
  { looked w jobId t attempts with
    clock := w.clock + w.fetchCost + min interval (left - w.fetchCost)
    sleeps := w.sleeps ++ [min interval (left - w.fetchCost)] }

theorem polled_one (w : World (Store ℚ) ℚ) (jobId : String) (t : JobTrack)
    (interval limit left : ℚ) (attempts : ℕ) :
    polled w jobId t interval limit left attempts 1 =
      { looked w jobId t attempts with
        events := (looked w jobId t attempts).events ++
          [(conclusion jobId limit t.current (attempts + 1)).2] } := by
  simp only [polled, looked, pauses, lookEvents, Nat.sub_self, List.range_zero, List.map_nil,
    List.sum_nil, List.append_nil, add_zero, Nat.cast_one, one_mul, List.append_assoc]
  rfl

/-- After a pause the looks go on with the job moved on. -/
theorem polled_succ {w : World (Store ℚ) ℚ} {jobId : String} {limit : ℚ} {attempts : ℕ}
    (hn : 1 ≤ n) (hshort : left - w.fetchCost < interval → n = 1) :
    polled w jobId t interval limit left attempts (n + 1) =
      polled (paused w jobId t interval left attempts) jobId t.advance interval limit
        (left - w.fetchCost - min interval (left - w.fetchCost)) (attempts + 1) n := by
  obtain ⟨m, rfl⟩ := Nat.exists_eq_add_of_le' hn
  have hcount : attempts + (m + 1 + 1) = attempts + 1 + (m + 1) := by omega
  simp only [polled, paused, looked, pauses_succ hn hshort, lookEvents_succ jobId t attempts (m + 1),
    List.append_assoc, List.cons_append, List.nil_append, List.sum_cons, hcount]
  congr 1
  push_cast
  ring

/-- A look that stops is the last one. -/
theorem poll_last (ht : w.platform.jobs.find? jobId = some t) (hleft : deadline - w.clock = left)
    (hstop : 1 ∈ stops t interval w.fetchCost left) (fuel : ℕ) :
    (poll jobId interval limit deadline (fuel + 1) attempts).run w =
      ((conclusion jobId limit t.current (attempts + 1)).1,
        polled w jobId t interval limit left attempts 1) := by
  rw [poll, pollBy, run_bind_ok (run_look ht), polled_one]
  dsimp only
  rw [run_bind_ok (x := Run.emit _) (t := looked w jobId t attempts) rfl, conclusion]
  cases hs : t.current.status with
  | finished | failed => rfl
  | queued | running =>
    have hover : deadline - (looked w jobId t attempts).clock ≤ 0 := by
      rcases one_mem_stops.mp hstop with h | h
      · rw [hs] at h
        cases h
      · change deadline - (w.clock + w.fetchCost) ≤ 0
        linarith
    dsimp only
    rw [run_bind_ok (x := get) (t := looked w jobId t attempts) rfl, if_pos hover]
    rfl

/-- A look that does not stop is followed by a pause and the rest of the looks. -/
theorem poll_again (ht : w.platform.jobs.find? jobId = some t) (hleft : deadline - w.clock = left)
    (hopen : t.current.status.isTerminal = false) (htime : w.fetchCost < left)
    (hcancel : w.cancelAt = none) (fuel : ℕ) :
    (poll jobId interval limit deadline (fuel + 1) attempts).run w =
      (poll jobId interval limit deadline fuel (attempts + 1)).run
        (paused w jobId t interval left attempts) := by
  have hleft' : deadline - (looked w jobId t attempts).clock = left - w.fetchCost := by
    change deadline - (w.clock + w.fetchCost) = _
    linarith
  rw [poll, pollBy, run_bind_ok (run_look ht)]
  dsimp only
  rw [run_bind_ok (x := Run.emit _) (t := looked w jobId t attempts) rfl]
  cases hs : t.current.status with
  | finished | failed =>
    rw [hs] at hopen
    cases hopen
  | queued | running =>
    dsimp only
    rw [run_bind_ok (x := get) (t := looked w jobId t attempts) rfl, hleft',
      if_neg (by linarith), pause_eq_min]
    exact run_bind_ok (run_sleep (w := looked w jobId t attempts) hcancel _)

theorem find?_paused (ht : w.platform.jobs.find? jobId = some t)
    (hopen : t.current.status.isTerminal = false) :
    (paused w jobId t interval left attempts).platform.jobs.find? jobId = some t.advance := by
  have hid : t.id = jobId := (Register.find?_eq_some_iff.mp ht).2
  have hpending : t.current.status ≠ .finished := by
    intro h
    rw [h] at hopen
    cases hopen
  rw [paused, looked, Store.lookedAt, Store.lookedAt, Store.run_getJob ht, Store.look_pending hpending,
    Register.find?_put]
  exact if_pos ((JobTrack.advance_id t).trans hid)

/-- The looks at a job go on up to the first one that stops, and no further. -/
theorem run_poll (jobId : String) (limit : ℚ) (fuel attempts : ℕ) (hn : n ≤ fuel)
    (ht : w.platform.jobs.find? jobId = some t) (hleft : deadline - w.clock = left)
    (hcancel : w.cancelAt = none) (hc : 0 ≤ w.fetchCost)
    (hl : IsLeast (stops t interval w.fetchCost left) n) :
    (poll jobId interval limit deadline fuel attempts).run w =
      ((conclusion jobId limit (t.shown (n - 1)) (attempts + n)).1,
        polled w jobId t interval limit left attempts n) := by
  induction fuel generalizing attempts n w t left with
  | zero =>
    have := hl.1.1
    omega
  | succ fuel ih =>
    obtain ⟨m, rfl⟩ := Nat.exists_eq_add_of_le' hl.1.1
    cases m with
    | zero => exact poll_last ht hleft hl.1 fuel
    | succ m =>
      obtain ⟨hopen, htime, hrest, hshort⟩ := stops_succ hc (by omega) hl
      have hclock : deadline - (paused w jobId t interval left attempts).clock =
          left - w.fetchCost - min interval (left - w.fetchCost) := by
        change deadline - (w.clock + w.fetchCost + _) = _
        linarith
      have hcount : attempts + (m + 1 + 1) = attempts + 1 + (m + 1) := by omega
      rw [poll_again ht hleft hopen htime hcancel fuel, polled_succ (by omega) hshort, hcount]
      exact ih (attempts + 1) (w := paused w jobId t interval left attempts) (by omega)
        (find?_paused ht hopen) hclock hcancel hc hrest

/-- The look after which the time is up in any case. -/
def lookLimit (interval limit cost : ℚ) : ℕ := max 1 ⌈(limit + interval) / (interval + cost)⌉₊

theorem le_spent_iff (hpos : 0 < interval + cost) {k : ℕ} :
    limit ≤ spent interval cost k ↔ ⌈(limit + interval) / (interval + cost)⌉₊ ≤ k := by
  rw [Nat.ceil_le, div_le_iff₀ hpos, spent]
  constructor <;> intro h <;> linarith

theorem lookLimit_isLeast (limit : ℚ) (hpos : 0 < interval + cost) :
    IsLeast {k : ℕ | 1 ≤ k ∧ limit ≤ spent interval cost k} (lookLimit interval limit cost) := by
  refine ⟨⟨le_max_left _ _, (le_spent_iff hpos).mpr (le_max_right _ _)⟩, fun k hk => ?_⟩
  exact max_le hk.1 ((le_spent_iff hpos).mp hk.2)

/-- What some looks at a job leave behind: as many requests, one pause fewer, and an event for each
look and for the end. -/
structure Waited (w : World (Store ℚ) ℚ) (jobId : String) (t : JobTrack) (interval limit : ℚ)
    (looks : ℕ) (ending : Event) (v : World (Store ℚ) ℚ) : Prop where
  requests : v.platform.calls = w.platform.calls ++ List.replicate looks (.getJob jobId)
  sleeps : v.sleeps = w.sleeps ++ (List.range (looks - 1)).map fun i : ℕ =>
    min interval (limit - (i + 1) * w.fetchCost - i * interval)
  /-- Only the last pause can be less than the interval. -/
  full : ∀ i : ℕ, i + 1 < looks - 1 → interval ≤ limit - (i + 1) * w.fetchCost - i * interval
  events : v.events = w.events ++
    ((List.range looks).map fun i => .jobPoll jobId (t.shown i).status (i + 1)) ++ [ending]

theorem waited_polled (hc : 0 ≤ w.fetchCost) (h : IsLeast (stops t interval w.fetchCost limit) n) :
    Waited w jobId t interval limit n (conclusion jobId limit (t.shown (n - 1)) n).2
      (polled w jobId t interval limit limit 0 n) where
  requests := Store.calls_lookedAt jobId n w.platform
  sleeps := rfl
  full := by
    intro i hi
    have hearly : i + 2 ∉ stops t interval w.fetchCost limit := by
      intro hm
      have := h.2 hm
      omega
    rw [mem_stops, not_and, not_or, not_le, spent] at hearly
    have htime := (hearly (by omega)).2
    push_cast at htime
    linarith
  events := by
    simp only [polled, lookEvents, Nat.zero_add, List.append_assoc]

/-- Waiting for a job ends with what the poller makes of the first answer that stops it. -/
theorem awaitCompletion_ends (p : Poller ℚ) (ownInterval ownTimeout : Option ℚ)
    (ht : w.platform.jobs.find? jobId = some t) (hcancel : w.cancelAt = none)
    (hc : 0 ≤ w.fetchCost)
    (h : IsLeast (stops t (ownInterval.getD p.interval) w.fetchCost
      (ownTimeout.getD p.timeout)) n) :
    Ends (p.awaitCompletion jobId ownInterval ownTimeout) w
      (conclusion jobId (ownTimeout.getD p.timeout) (t.shown (n - 1)) n).1
      (polled w jobId t (ownInterval.getD p.interval) (ownTimeout.getD p.timeout)
        (ownTimeout.getD p.timeout) 0 n) := by
  refine Ends.counted n fun k hk => ?_
  have hclock : w.clock + ownTimeout.getD p.timeout - w.clock = ownTimeout.getD p.timeout :=
    add_sub_cancel_left _ _
  have hrun := run_poll jobId (ownTimeout.getD p.timeout) k 0 (w := { w with patience := k }) hk ht
    hclock hcancel hc h
  rw [Nat.zero_add] at hrun
  exact hrun

theorem awaitCompletion_waits (p : Poller ℚ) (ownInterval ownTimeout : Option ℚ)
    (ht : w.platform.jobs.find? jobId = some t) (hcancel : w.cancelAt = none)
    (hc : 0 ≤ w.fetchCost)
    (h : IsLeast (stops t (ownInterval.getD p.interval) w.fetchCost
      (ownTimeout.getD p.timeout)) n) :
    ∃ v, Ends (p.awaitCompletion jobId ownInterval ownTimeout) w
        (conclusion jobId (ownTimeout.getD p.timeout) (t.shown (n - 1)) n).1 v ∧
      Waited w jobId t (ownInterval.getD p.interval) (ownTimeout.getD p.timeout) n
        (conclusion jobId (ownTimeout.getD p.timeout) (t.shown (n - 1)) n).2 v :=
  ⟨_, awaitCompletion_ends p ownInterval ownTimeout ht hcancel hc h, waited_polled hc h⟩

/-- A terminal answer that comes in time is the one that stops. -/
theorem stops_at_terminal {first last : ℕ}
    (hlast : IsLeast {k : ℕ | 1 ≤ k ∧ left ≤ spent interval cost k} last)
    (hfirst : IsLeast {k : ℕ | 1 ≤ k ∧ (t.shown (k - 1)).status.isTerminal = true} first)
    (hle : first ≤ last) : IsLeast (stops t interval cost left) first := by
  refine ⟨⟨hfirst.1.1, .inl hfirst.1.2⟩, fun k hk => ?_⟩
  rcases hk.2 with hterminal | htime
  · exact hfirst.2 ⟨hk.1, hterminal⟩
  · exact hle.trans (hlast.2 ⟨hk.1, htime⟩)

/-- Without a terminal answer in time, it is the time that stops. -/
theorem stops_at_limit {last : ℕ}
    (hlast : IsLeast {k : ℕ | 1 ≤ k ∧ left ≤ spent interval cost k} last)
    (hopen : ∀ k < last, (t.shown k).status.isTerminal = false) :
    IsLeast (stops t interval cost left) last := by
  refine ⟨⟨hlast.1.1, .inr hlast.1.2⟩, fun k hk => ?_⟩
  rcases hk.2 with hterminal | htime
  · by_contra hlt
    have := hk.1
    rw [hopen (k - 1) (by omega)] at hterminal
    cases hterminal
  · exact hlast.2 ⟨hk.1, htime⟩

/-- Waiting for a job in closed form. The poller looks at the job until an answer is terminal, but
never after the look with which the time is used up. -/
theorem awaitCompletion_closed_form (p : Poller ℚ) (ownInterval ownTimeout : Option ℚ)
    (ht : w.platform.jobs.find? jobId = some t) (hcancel : w.cancelAt = none)
    (hinterval : ownInterval.getD p.interval = interval)
    (hlimit : ownTimeout.getD p.timeout = limit) (hc : 0 ≤ w.fetchCost)
    (hpos : 0 < interval + w.fetchCost) :
    ∃ last : ℕ,
      IsLeast {k : ℕ | 1 ≤ k ∧ limit ≤ k * w.fetchCost + (k - 1) * interval} last ∧
      (∀ first, IsLeast {k : ℕ | 1 ≤ k ∧ (t.shown (k - 1)).status.isTerminal = true} first →
        first ≤ last →
        ((t.shown (first - 1)).status = .finished → ∃ v,
          Ends (p.awaitCompletion jobId ownInterval ownTimeout) w (.ok (t.shown (first - 1))) v ∧
          Waited w jobId t interval limit first (.jobFinished jobId first) v) ∧
        ((t.shown (first - 1)).status = .failed → ∃ v,
          Ends (p.awaitCompletion jobId ownInterval ownTimeout) w
            (.error (match (t.shown (first - 1)).details with
              | some e => .jobFailed e.code e.description e.errorCode
              | none => .jobFailed 0
                ("Job " ++ (t.shown (first - 1)).id ++ " failed without error details") "")) v ∧
          Waited w jobId t interval limit first (.jobFailed jobId first) v)) ∧
      ((∀ k < last, (t.shown k).status.isTerminal = false) → ∃ v,
        Ends (p.awaitCompletion jobId ownInterval ownTimeout) w
          (.error (.pollTimeout jobId limit)) v ∧
        Waited w jobId t interval limit last (.jobTimeout jobId last) v) := by
  subst hinterval
  subst hlimit
  have hlast := lookLimit_isLeast (ownTimeout.getD p.timeout) hpos
  refine ⟨_, hlast, fun first hfirst hle => ?_, fun hopen => ?_⟩
  · have hwait := awaitCompletion_waits p ownInterval ownTimeout ht hcancel hc
      (stops_at_terminal hlast hfirst hle)
    refine ⟨fun hs => ?_, fun hs => ?_⟩
    · rw [conclusion, hs] at hwait
      exact hwait
    · rw [conclusion, hs, failureOf_eq] at hwait
      exact hwait
  · have hwait := awaitCompletion_waits p ownInterval ownTimeout ht hcancel hc
      (stops_at_limit hlast hopen)
    have hend := hopen (lookLimit (ownInterval.getD p.interval) (ownTimeout.getD p.timeout)
      w.fetchCost - 1) (by have := hlast.1.1; omega)
    rw [conclusion_pending hend] at hwait
    exact hwait

/-- A job that waits once and then fails for good. -/
def failingTrack : JobTrack :=
  ⟨"job-1", ⟨"job-1", .queued, none⟩, [⟨"job-1", .failed, some ⟨7, "broken", "CF-Broken"⟩⟩], none⟩

/-- A platform that holds nothing but that job, where a look takes half a second. -/
def failingWorld : World (Store ℚ) ℚ where
  platform := { pageSize := 1, substringFilters := false, jobs := Register.empty.put failingTrack }
  clock := 0
  fetchCost := 1 / 2
  cancelAt := none
  sleeps := []
  events := []
  patience := 0

theorem awaitCompletion_failing :
    failingWorld.platform.jobs.find? "job-1" = some failingTrack ∧
      failingWorld.cancelAt = none ∧ 0 ≤ failingWorld.fetchCost ∧
      0 < 1 + failingWorld.fetchCost ∧
      ∃ v, Ends ((Poller.mk 1 5).awaitCompletion "job-1" none none) failingWorld
          (.error (.jobFailed 7 "broken" "CF-Broken")) v ∧
        Waited failingWorld "job-1" failingTrack 1 5 2 (.jobFailed "job-1" 2) v := by
  have ht : failingWorld.platform.jobs.find? "job-1" = some failingTrack := by decide
  have hc : 0 ≤ failingWorld.fetchCost := by norm_num [failingWorld]
  have hpos : 0 < 1 + failingWorld.fetchCost := by linarith
  refine ⟨ht, rfl, hc, hpos, ?_⟩
  obtain ⟨last, hlast, hterminal, -⟩ :=
    awaitCompletion_closed_form (Poller.mk 1 5) none none ht rfl rfl rfl hc hpos
  have hfirst : IsLeast {k : ℕ | 1 ≤ k ∧ (failingTrack.shown (k - 1)).status.isTerminal = true} 2 := by
    refine ⟨⟨by omega, rfl⟩, fun k hk => ?_⟩
    by_contra hlt
    obtain rfl : k = 1 := by
      have := hk.1
      omega
    cases hk.2
  have hle : 2 ≤ last := by
    by_contra hlt
    obtain rfl : last = 1 := by
      have := hlast.1.1
      omega
    have := hlast.1.2
    norm_num [failingWorld] at this
  exact (hterminal 2 hfirst hle).2 rfl

end Poller

end PlatformRoutes
