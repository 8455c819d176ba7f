import PlatformRoutes.Proofs.Polling

namespace PlatformRoutes.Poller

variable {σ : Type}

/-- Looks that each take a time of their own, awake, in every world where a look at the platform
costs the same. -/
structure Timed (look : ℕ → Run σ ℚ Job) (fetchCost : ℚ) (cost : ℕ → ℚ) : Prop where
  clock : ∀ n w, w.fetchCost = fetchCost → ((look n).run w).2.clock = w.clock + cost n
  sleeps : ∀ n w, ((look n).run w).2.sleeps = w.sleeps
  fetchCost : ∀ n w, ((look n).run w).2.fetchCost = w.fetchCost

/-- Looks at a platform all take the same time. -/
theorem timed_getJob [Platform σ ℚ] (jobId : String) (fetchCost : ℚ) :
    Timed (fun _ => Run.getJob (σ := σ) jobId) fetchCost fun _ => fetchCost where
  clock _ w h := congrArg (w.clock + ·) h
  sleeps _ _ := rfl
  fetchCost _ _ := rfl

/-- The sleeps of a wait that has some time left. Before each there is a look that leaves some of the
time, and the sleep takes the interval or all that is left, if that is less. -/
inductive Naps (interval : ℚ) : (left : ℚ) → (cost : ℕ → ℚ) → List ℚ → Prop
  | none (left : ℚ) (cost : ℕ → ℚ) : Naps interval left cost []
  | next {left : ℚ} {cost : ℕ → ℚ} {naps : List ℚ} (intime : 0 < left - cost 1)
      (rest : Naps interval (left - cost 1 - min interval (left - cost 1)) (fun n => cost (n + 1))
        naps) :
      Naps interval left cost (min interval (left - cost 1) :: naps)

/-- What is left of the time when a sleep begins, by the looks up to it and the sleeps before it. -/
def timeLeft (limit : ℚ) (cost : ℕ → ℚ) (naps : List ℚ) (i : ℕ) : ℚ :=
  limit - ∑ n ∈ Finset.range (i + 1), cost (n + 1) - (naps.take i).sum

variable {look : ℕ → Run σ ℚ Job} {cost : ℕ → ℚ} {interval deadline left pace : ℚ} {naps : List ℚ}
  {w : World σ ℚ}

theorem timeLeft_zero (limit : ℚ) (cost : ℕ → ℚ) (naps : List ℚ) :
    timeLeft limit cost naps 0 = limit - cost 1 := by
  simp [timeLeft]

/-- After the first sleep the rest of the time is counted from there. -/
theorem timeLeft_succ (limit : ℚ) (cost : ℕ → ℚ) (d : ℚ) (naps : List ℚ) (i : ℕ) :
    timeLeft limit cost (d :: naps) (i + 1) =
      timeLeft (limit - cost 1 - d) (fun n => cost (n + 1)) naps i := by
  rw [timeLeft, timeLeft, Finset.sum_range_succ', List.take_succ_cons, List.sum_cons]
  ring

theorem Naps.getElem_eq (h : Naps interval left cost naps) {i : ℕ} (hi : i < naps.length) :
    naps[i] = min interval (timeLeft left cost naps i) ∧ 0 < timeLeft left cost naps i := by
  induction h generalizing i with
  | none => exact absurd hi (Nat.not_lt_zero i)
  | next intime rest ih =>
    cases i with
    | zero =>
      rw [timeLeft_zero]
      exact ⟨rfl, intime⟩
    | succ i =>
      rw [timeLeft_succ]
      exact ih (Nat.lt_of_succ_lt_succ hi)

theorem Naps.mem_eq (h : Naps interval left cost naps) {d : ℚ} (hd : d ∈ naps) :
    ∃ rest, 0 < rest ∧ d = min interval rest := by
  obtain ⟨i, hi, rfl⟩ := List.mem_iff_getElem.mp hd
  obtain ⟨hnap, hleft⟩ := h.getElem_eq hi
  exact ⟨_, hleft, hnap⟩

/-- The last sleep ends in time, and so they all do. -/
theorem Naps.sum_le (h : Naps interval left cost naps) (hcost : ∀ n, 0 ≤ cost n) :
    naps.sum ≤ max 0 left := by
  rcases List.eq_nil_or_concat naps with rfl | ⟨before, d, rfl⟩
  · exact le_max_left 0 left
  · rw [List.concat_eq_append] at h ⊢
    obtain ⟨hlast, -⟩ := h.getElem_eq (i := before.length) (by simp)
    have hintime : d ≤ timeLeft left cost (before ++ [d]) before.length := by
      rw [List.getElem_concat_length rfl] at hlast
      exact hlast.le.trans (min_le_right _ _)
    have hlooks : 0 ≤ ∑ n ∈ Finset.range (before.length + 1), cost (n + 1) :=
      Finset.sum_nonneg fun n _ => hcost (n + 1)
    rw [timeLeft, List.take_left] at hintime
    rw [List.sum_append, List.sum_singleton]
    exact le_max_of_le_right (by linarith)

/-- A sleep is recorded in any case, and unless it is cancelled the rest goes on later by as much. -/
theorem run_sleep_then (u : World σ ℚ) (d : ℚ) (next : Run σ ℚ Job) :
    let r := (do Run.sleep d; next : Run σ ℚ Job).run u
    r.2.sleeps = u.sleeps ++ [d] ∨
      ∃ v, v.fetchCost = u.fetchCost ∧ v.clock = u.clock + d ∧ v.sleeps = u.sleeps ++ [d] ∧
        r = next.run v := by
  have hsleep := run_sleep_cases u d
  split at hsleep
  · exact .inl (by rw [run_bind_error hsleep])
  · exact .inr ⟨{ u with sleeps := u.sleeps ++ [d], clock := u.clock + d }, rfl, rfl, rfl,
      run_bind_ok hsleep⟩

/-- What comes of one look: the wait ends awake, or it sleeps, and unless the sleep is cancelled it
goes on with that much less time left. -/
theorem pollBy_round (timed : Timed look pace cost) (jobId : String) (interval limit : ℚ)
    (hpace : w.fetchCost = pace) (hleft : deadline - w.clock = left) (fuel attempts : ℕ) :
    let r := (pollBy look jobId interval limit deadline (fuel + 1) attempts).run w
    let rest := left - cost (attempts + 1)
    r.2.sleeps = w.sleeps ∨
      0 < rest ∧ (r.2.sleeps = w.sleeps ++ [min interval rest] ∨
        ∃ v, v.fetchCost = pace ∧ deadline - v.clock = rest - min interval rest ∧
          v.sleeps = w.sleeps ++ [min interval rest] ∧
          r = (pollBy look jobId interval limit deadline fuel (attempts + 1)).run v) := by
  have hclock := timed.clock (attempts + 1) w hpace
  have hsleeps := timed.sleeps (attempts + 1) w
  have hcost := (timed.fetchCost (attempts + 1) w).trans hpace
  dsimp only
  rw [pollBy]
  cases hlook : (look (attempts + 1)).run w with
  | mk outcome u =>
    rw [hlook] at hclock hsleeps hcost
    have hrest : deadline - u.clock = left - cost (attempts + 1) := by
      rw [hclock]
      linarith
    cases outcome with
    | error f =>
      rw [run_bind_error hlook]
      exact .inl hsleeps
    | ok job =>
      rw [run_bind_ok hlook]
      dsimp only
      rw [run_bind_ok (x := Run.emit _) rfl]
      cases job.status with
      | finished | failed => exact .inl hsleeps
      | queued | running =>
        dsimp only
        rw [run_bind_ok (x := get) rfl]
        dsimp only
        rw [hrest]
        by_cases hover : left - cost (attempts + 1) ≤ 0
        · rw [if_pos hover]
          exact .inl hsleeps
        · rw [if_neg hover, pause_eq_min]
          rcases run_sleep_then { u with events := u.events ++ [.jobPoll jobId _ (attempts + 1)] }
            (min interval (left - cost (attempts + 1)))
            (pollBy look jobId interval limit deadline fuel (attempts + 1)) with
            hcancelled | ⟨v, hpaced, hlater, hslept, hrun⟩
          · exact .inr ⟨not_le.mp hover, .inl (hcancelled.trans (congrArg (· ++ [_]) hsleeps))⟩
          · refine .inr ⟨not_le.mp hover, .inr ⟨v, hpaced.trans hcost, ?_,
              hslept.trans (congrArg (· ++ [_]) hsleeps), hrun⟩⟩
            dsimp only at hlater
            linarith

theorem pollBy_naps (timed : Timed look pace cost) (jobId : String) (interval limit : ℚ)
    (hpace : w.fetchCost = pace) (hleft : deadline - w.clock = left) (fuel attempts : ℕ) : ∃ naps,
    ((pollBy look jobId interval limit deadline fuel attempts).run w).2.sleeps = w.sleeps ++ naps ∧
      Naps interval left (fun n => cost (attempts + n)) naps := by
  -- Each round is a wait of its own: it starts later, with less time left and with later looks.
  induction fuel generalizing attempts left w with
  | zero => exact ⟨[], (List.append_nil _).symm, .none _ _⟩
  | succ fuel ih =>
    rcases pollBy_round timed jobId interval limit hpace hleft fuel attempts with
      hended | ⟨hopen, hcancelled | ⟨v, hpaced, hlater, hslept, hrun⟩⟩
    · exact ⟨[], by rw [hended, List.append_nil], .none _ _⟩
    · exact ⟨_, hcancelled, .next hopen (.none _ _)⟩
    · obtain ⟨naps, hsleeps, hnaps⟩ := ih hpaced hlater (attempts + 1)
      refine ⟨_ :: naps, ?_, .next hopen ?_⟩
      · rw [hrun, hsleeps, hslept, List.append_assoc]
        rfl
      · have hshift : (fun n => cost (attempts + 1 + n)) = fun n => cost (attempts + (n + 1)) := by
          funext n
          rw [Nat.add_right_comm, Nat.add_assoc]
        rwa [hshift] at hnaps

theorem awaitBy_naps (p : Poller ℚ) (timed : Timed look w.fetchCost cost) (jobId : String)
    (interval timeout : Option ℚ) : ∃ naps,
    ((p.awaitBy look jobId interval timeout).run w).2.sleeps = w.sleeps ++ naps ∧
      Naps (interval.getD p.interval) (timeout.getD p.timeout) cost naps := by
  have hleft : w.clock + timeout.getD p.timeout - w.clock = timeout.getD p.timeout :=
    add_sub_cancel_left _ _
  obtain ⟨naps, hsleeps, hnaps⟩ := pollBy_naps timed jobId (interval.getD p.interval)
    (timeout.getD p.timeout) rfl hleft w.patience 0
  simp only [Nat.zero_add] at hnaps
  refine ⟨naps, ?_, hnaps⟩
  rw [awaitBy, run_bind_ok (x := get) rfl]
  exact hsleeps

/-- A poller has no negative interval of its own. -/
theorem interval_nonneg_of_new? {p : Poller ℚ} {ownInterval ownTimeout : ℚ}
    (accepted : (new? ownInterval ownTimeout : Except (Failure ℚ) (Poller ℚ)) = .ok p) :
    0 ≤ p.interval := by
  unfold new? at accepted
  split at accepted
  · cases accepted
  · rename_i hinterval
    split at accepted
    · cases accepted
    · cases accepted
      exact not_lt.mp hinterval

/-- The sleeps of a wait by an accepted poller: none goes past the deadline, all together take no
more than the timeout, and only a negative interval that is given makes one negative. -/
theorem Naps.in_time {p : Poller ℚ} {ownInterval ownTimeout : ℚ} {interval timeout : Option ℚ}
    (h : Naps (interval.getD p.interval) (timeout.getD p.timeout) cost naps)
    (accepted : (new? ownInterval ownTimeout : Except (Failure ℚ) (Poller ℚ)) = .ok p)
    (hcost : ∀ n, 0 ≤ cost n) :
    (∀ (i : ℕ) (hi : i < naps.length),
      naps[i] ≤ timeLeft (timeout.getD p.timeout) cost naps i) ∧
    naps.sum ≤ max 0 (timeout.getD p.timeout) ∧
    ((∀ given, interval = some given → 0 ≤ given) → ∀ d ∈ naps, 0 ≤ d) ∧
    ∀ given, interval = some given → given < 0 → ∀ d ∈ naps, d = given := by
  refine ⟨fun i hi => ?_, h.sum_le hcost, fun hgiven d hd => ?_, ?_⟩
  · exact (h.getElem_eq hi).1.le.trans (min_le_right _ _)
  · obtain ⟨rest, hrest, rfl⟩ := h.mem_eq hd
    refine le_min ?_ hrest.le
    cases interval with
    | none => exact interval_nonneg_of_new? accepted
    | some given => exact hgiven given rfl
  · rintro given rfl hnegative d hd
    obtain ⟨rest, hrest, rfl⟩ := h.mem_eq hd
    exact min_eq_left (hnegative.le.trans hrest.le)

/-- No sleep of a wait goes past the deadline, whatever time each look takes, and so all of them
together take no more than the timeout. None is negative, unless a negative interval is given for
this wait: then each of them is just that. -/
theorem awaitBy_sleeps_in_time {p : Poller ℚ} {ownInterval ownTimeout : ℚ}
    (accepted : (new? ownInterval ownTimeout : Except (Failure ℚ) (Poller ℚ)) = .ok p)
    (timed : Timed look w.fetchCost cost) (hcost : ∀ n, 0 ≤ cost n) (jobId : String)
    (interval timeout : Option ℚ) :
    ∃ naps, ((p.awaitBy look jobId interval timeout).run w).2.sleeps = w.sleeps ++ naps ∧
      (∀ (i : ℕ) (hi : i < naps.length),
        naps[i] ≤ timeLeft (timeout.getD p.timeout) cost naps i) ∧
      naps.sum ≤ max 0 (timeout.getD p.timeout) ∧
      ((∀ given, interval = some given → 0 ≤ given) → ∀ d ∈ naps, 0 ≤ d) ∧
      ∀ given, interval = some given → given < 0 → ∀ d ∈ naps, d = given := by
  obtain ⟨naps, hsleeps, hnaps⟩ := awaitBy_naps p timed jobId interval timeout
  exact ⟨naps, hsleeps, hnaps.in_time accepted hcost⟩

/-- So it is for the wait in which the platform is asked each time, where all looks take as long. -/
theorem awaitCompletion_in_time [Platform σ ℚ] {p : Poller ℚ} {ownInterval ownTimeout : ℚ}
    (accepted : (new? ownInterval ownTimeout : Except (Failure ℚ) (Poller ℚ)) = .ok p)
    (hcost : 0 ≤ w.fetchCost) (jobId : String) (interval timeout : Option ℚ) :
    ∃ naps,
      ((p.awaitCompletion jobId interval timeout).run w).2.sleeps = w.sleeps ++ naps ∧
      (∀ (i : ℕ) (hi : i < naps.length),
        naps[i] ≤ timeLeft (timeout.getD p.timeout) (fun _ => w.fetchCost) naps i) ∧
      naps.sum ≤ max 0 (timeout.getD p.timeout) ∧
      ((∀ given, interval = some given → 0 ≤ given) → ∀ d ∈ naps, 0 ≤ d) ∧
      ∀ given, interval = some given → given < 0 → ∀ d ∈ naps, d = given := by
  obtain ⟨naps, hsleeps, hnaps⟩ :=
    awaitBy_naps p (timed_getJob jobId w.fetchCost) jobId interval timeout
  exact ⟨naps, hsleeps, hnaps.in_time accepted fun _ => hcost⟩

/-- A job that runs at the first look, or at all looks. -/
def runningWorld (later : List Job) : World (Store ℚ) ℚ where
  platform :=
    { pageSize := 1
      substringFilters := false
      jobs := Register.empty.put ⟨"job-1", ⟨"job-1", .running, none⟩, later, none⟩ }
  clock := 0
  fetchCost := 0
  cancelAt := none
  sleeps := []
  events := []
  patience := 5

/-- Looks that take half a second longer each time. -/
def slowing (n : ℕ) : Run (Store ℚ) ℚ Job := do
  modify fun w => { w with clock := w.clock + n / 2 }
  Run.onPlatform (Platform.getJob "job-1")

theorem timed_slowing : Timed slowing 0 fun n => n / 2 where
  clock _ _ _ := rfl
  sleeps _ _ := rfl
  fetchCost _ _ := rfl

/-- The second sleep is cut short, and the third look comes too late for another one. -/
theorem awaitBy_sleeps_in_time_slowing :
    (new? 2 4 : Except (Failure ℚ) (Poller ℚ)) = .ok ⟨2, 4⟩ ∧
      Timed slowing (runningWorld []).fetchCost (fun n => n / 2) ∧ (∀ n : ℕ, 0 ≤ (n / 2 : ℚ)) ∧
      (((Poller.mk 2 4).awaitBy slowing "job-1" none none).run (runningWorld [])).2.sleeps =
        [2, 1 / 2] ∧
      1 / 2 ≤ timeLeft 4 (fun n => n / 2) [2, 1 / 2] 1 ∧
      ([2, 1 / 2] : List ℚ).sum ≤ max 0 4 ∧ ∀ d ∈ ([2, 1 / 2] : List ℚ), 0 ≤ d := by
  have accepted : (new? 2 4 : Except (Failure ℚ) (Poller ℚ)) = .ok ⟨2, 4⟩ := by
    norm_num [new?]
  have hcost (n : ℕ) : 0 ≤ (n / 2 : ℚ) := by positivity
  have hrun : (((Poller.mk 2 4).awaitBy slowing "job-1" none none).run (runningWorld [])).2.sleeps =
      [2, 1 / 2] := by decide +kernel
  obtain ⟨naps, hsleeps, hintime, hsum, hforward, -⟩ :=
    awaitBy_sleeps_in_time (w := runningWorld []) accepted timed_slowing hcost "job-1" none none
  obtain rfl : [2, 1 / 2] = naps := hrun.symm.trans hsleeps
  exact ⟨accepted, timed_slowing, hcost, hrun, hintime 1 (by decide), hsum,
    hforward fun _ h => by cases h⟩

/-- An interval that is given for one wait is not checked, and a negative one turns the clock back. -/
theorem awaitCompletion_sleeps_back :
    (new? 1 300 : Except (Failure ℚ) (Poller ℚ)) = .ok ⟨1, 300⟩ ∧
      (((Poller.mk 1 300).awaitCompletion "job-1" (some (-1)) none).run
        (runningWorld [⟨"job-1", .finished, none⟩])).1.toOption =
          some ⟨"job-1", .finished, none⟩ ∧
      (((Poller.mk 1 300).awaitCompletion "job-1" (some (-1)) none).run
        (runningWorld [⟨"job-1", .finished, none⟩])).2.sleeps = [-1] ∧
      ¬ ∀ d ∈ ([-1] : List ℚ), 0 ≤ d :=
  ⟨by norm_num [new?], by decide +kernel, by decide +kernel, by norm_num⟩

end PlatformRoutes.Poller
