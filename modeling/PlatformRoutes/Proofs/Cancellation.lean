import PlatformRoutes.Proofs.Sweep
import PlatformRoutes.Proofs.UniqueKeys

namespace PlatformRoutes

/-- One thing that an operation did: it put a request to the platform, told of something, or
slept. -/
inductive Moment (τ : Type) where
  | asked (q : Request)
  | told (event : Event)
  | slept (duration : τ)

namespace Moment

variable {τ : Type}

def request? : Moment τ → Option Request
  | asked q => some q
  | told _ | slept _ => none

def event? : Moment τ → Option Event
  | told event => some event
  | asked _ | slept _ => none

def sleep? : Moment τ → Option τ
  | slept duration => some duration
  | asked _ | told _ => none

def requestsIn (c : List (Moment τ)) : List Request := c.filterMap request?

def eventsIn (c : List (Moment τ)) : List Event := c.filterMap event?

def sleepsIn (c : List (Moment τ)) : List τ := c.filterMap sleep?

variable {c c' : List (Moment τ)}

@[simp]
theorem requestsIn_append : requestsIn (c ++ c') = requestsIn c ++ requestsIn c' := List.filterMap_append

@[simp]
theorem eventsIn_append : eventsIn (c ++ c') = eventsIn c ++ eventsIn c' := List.filterMap_append

@[simp]
theorem sleepsIn_append : sleepsIn (c ++ c') = sleepsIn c ++ sleepsIn c' := List.filterMap_append

/-- Of a chronicle of two parts, each moment is in one of them. -/
theorem split_append {before later : List (Moment τ)} {m : Moment τ}
    (h : c ++ c' = before ++ m :: later) :
    (∃ rest, c = before ++ m :: rest ∧ later = rest ++ c') ∨
      ∃ first, before = c ++ first ∧ c' = first ++ m :: later := by
  rcases List.append_eq_append_iff.mp h with ⟨first, hbefore, hrest⟩ | ⟨rest, hc, hrest⟩
  · exact .inr ⟨first, hbefore, hrest⟩
  · cases rest with
    | nil => exact .inr ⟨[], by rw [hc, List.append_nil, List.append_nil], hrest.symm⟩
    | cons m rest =>
      cases hrest
      exact .inl ⟨rest, hc, rfl⟩

end Moment

open Moment (requestsIn eventsIn sleepsIn)

variable {τ α β : Type}

/-- What happened between two worlds, in its order. -/
structure World.Went (w v : World (Store τ) τ) (c : List (Moment τ)) : Prop where
  platform : v.platform = replay w.platform (requestsIn c)
  events : v.events = w.events ++ eventsIn c
  sleeps : v.sleeps = w.sleeps ++ sleepsIn c

namespace World.Went

variable {u v w : World (Store τ) τ} {c c' : List (Moment τ)}

theorem nil (w : World (Store τ) τ) : w.Went w [] :=
  ⟨rfl, (List.append_nil _).symm, (List.append_nil _).symm⟩

theorem trans (h : w.Went v c) (h' : v.Went u c') : w.Went u (c ++ c') where
  platform := by rw [h'.platform, h.platform, Moment.requestsIn_append, replay_append]
  events := by rw [h'.events, h.events, Moment.eventsIn_append, List.append_assoc]
  sleeps := by rw [h'.sleeps, h.sleeps, Moment.sleepsIn_append, List.append_assoc]

/-- The requests that reached the platform are those that were put to it. -/
theorem calls (h : w.Went v c) : v.platform.calls = w.platform.calls ++ requestsIn c := by
  rw [h.platform, Store.calls_replay]

end World.Went

/-- The same world, in which another sleep is cancelled, or none. -/
def World.cancelling (w : World (Store τ) τ) (k : Option Nat) : World (Store τ) τ :=
  { w with cancelAt := k }

/-- How an operation goes. As long as the sleep to be cancelled is none of its own, it ends in one
way, and what it does has an order. Where one of its sleeps is cancelled, it ends there, with
nothing done but what had been done by then. -/
structure Goes (x : Run (Store τ) τ α) (w : World (Store τ) τ) (c : List (Moment τ))
    (r : Except (Failure τ) α) (v : World (Store τ) τ) : Prop where
  went : w.Went v c
  through : ∀ k : Option Nat, (∀ n, k = some n → w.sleeps.length + (sleepsIn c).length < n) →
    x.run (w.cancelling k) = (r, v.cancelling k)
  cut : ∀ before d later, c = before ++ .slept d :: later →
    ∃ m, x.run (w.cancelling (some (w.sleeps.length + (sleepsIn before).length + 1))) =
        (.error .cancelled, m) ∧ w.Went m (before ++ [.slept d])

namespace Goes

variable {x : Run (Store τ) τ α} {f : α → Run (Store τ) τ β} {a : α} {u v w : World (Store τ) τ}
  {c c' : List (Moment τ)} {r : Except (Failure τ) β}

/-- What is done without sleeping cannot be cancelled. -/
theorem of_awake {r : Except (Failure τ) α} (hawake : sleepsIn c = []) (hwent : w.Went v c)
    (h : ∀ k, x.run (w.cancelling k) = (r, v.cancelling k)) : Goes x w c r v where
  went := hwent
  through k _ := h k
  cut before d later hc := by
    rw [hc, Moment.sleepsIn_append] at hawake
    exact absurd (List.append_eq_nil_iff.mp hawake).2 (List.cons_ne_nil _ _)

theorem pure (a : α) (w : World (Store τ) τ) : Goes (pure a) w [] (.ok a) w :=
  of_awake rfl (.nil w) fun _ => rfl

theorem throw (e : Failure τ) (w : World (Store τ) τ) :
    Goes (throw e : Run (Store τ) τ α) w [] (.error e) w :=
  of_awake rfl (.nil w) fun _ => rfl

/-- What is done with the outcome of a part goes on from there, unless the part is cancelled. -/
theorem andThen {r : Except (Failure τ) α} {r' : Except (Failure τ) β} {y z : Run (Store τ) τ β}
    (hx : Goes x w c r v) (hz : Goes z v c' r' u)
    (hthrough : ∀ s t, x.run s = (r, t) → y.run s = z.run t)
    (hcut : ∀ s t, x.run s = (.error .cancelled, t) → y.run s = (.error .cancelled, t)) :
    Goes y w (c ++ c') r' u := by
  have hlength : v.sleeps.length = w.sleeps.length + (sleepsIn c).length := by
    rw [hx.went.sleeps, List.length_append]
  refine ⟨hx.went.trans hz.went, fun k hk => ?_, fun before d later hc => ?_⟩
  · rw [Moment.sleepsIn_append, List.length_append] at hk
    rw [hthrough _ _ (hx.through k fun n hn => by have := hk n hn; omega)]
    exact hz.through k fun n hn => by have := hk n hn; omega
  · rcases Moment.split_append hc with ⟨rest, hx', -⟩ | ⟨first, rfl, hz'⟩
    · obtain ⟨m, hrun, hm⟩ := hx.cut before d rest hx'
      exact ⟨m, hcut _ _ hrun, hm⟩
    · obtain ⟨m, hrun, hm⟩ := hz.cut first d later hz'
      refine ⟨m, ?_, by rw [List.append_assoc]; exact hx.went.trans hm⟩
      rw [Moment.sleepsIn_append, List.length_append, ← Nat.add_assoc, ← hlength,
        hthrough _ _ (hx.through _ ?_)]
      · exact hrun
      · rintro n ⟨⟩
        omega

theorem bind (hx : Goes x w c (.ok a) v) (hf : Goes (f a) v c' r u) :
    Goes (x >>= f) w (c ++ c') r u :=
  hx.andThen hf (fun _ _ => run_bind_ok) fun _ _ => run_bind_error

theorem bind_error {e : Failure τ} (hx : Goes x w c (.error e) v) :
    Goes (x >>= f) w c (.error e) v where
  went := hx.went
  through k hk := run_bind_error (hx.through k hk)
  cut before d later hc := by
    obtain ⟨m, hrun, hm⟩ := hx.cut before d later hc
    exact ⟨m, run_bind_error hrun, hm⟩

/-- Who meets the failures of a part lets a cancellation pass. -/
theorem attempt {handle : Except (Failure τ) α → Run (Store τ) τ β} {r : Except (Failure τ) α}
    {r' : Except (Failure τ) β} (hpass : handle (.error .cancelled) = Run.fail .cancelled)
    (hx : Goes x w c r v) (hf : Goes (handle r) v c' r' u) :
    Goes (attempt x >>= handle) w (c ++ c') r' u := by
  refine hx.andThen hf (fun s t hs => ?_) fun s t hs => ?_
  · exact run_bind_ok (by rw [run_attempt, hs])
  · rw [run_bind_ok (by rw [run_attempt, hs]), hpass]
    rfl

/-- Operations that come to the same from a world go in the same way. -/
theorem congr {y : Run (Store τ) τ α} {r : Except (Failure τ) α}
    (h : ∀ k, y.run (w.cancelling k) = x.run (w.cancelling k)) (hx : Goes x w c r v) :
    Goes y w c r v where
  went := hx.went
  through k hk := (h k).trans (hx.through k hk)
  cut before d later hc := by
    obtain ⟨m, hrun, hm⟩ := hx.cut before d later hc
    exact ⟨m, (h _).trans hrun, hm⟩

theorem get_bind {g : World (Store τ) τ → Run (Store τ) τ β}
    (free : ∀ k, g (w.cancelling k) = g w) (hg : Goes (g w) w c r u) :
    Goes (get >>= g) w c r u where
  went := hg.went
  through k hk := by
    rw [run_bind_ok (x := get) rfl, free]
    exact hg.through k hk
  cut before d later hc := by
    obtain ⟨m, hrun, hm⟩ := hg.cut before d later hc
    exact ⟨m, by rw [run_bind_ok (x := get) rfl, free]; exact hrun, hm⟩

theorem emit (event : Event) (w : World (Store τ) τ) :
    Goes (Run.emit event) w [.told event] (.ok ())
      { w with events := w.events ++ [event] } :=
  of_awake rfl ⟨rfl, rfl, (List.append_nil _).symm⟩ fun _ => rfl

theorem onPlatform {act : Act (Store τ) τ α} (q : Request) (h : ∀ s, (act.run s).2 = q.after s)
    (w : World (Store τ) τ) :
    Goes (Run.onPlatform act) w [.asked q] (act.run w.platform).1
      { w with platform := (act.run w.platform).2 } :=
  of_awake rfl ⟨h w.platform, (List.append_nil _).symm, (List.append_nil _).symm⟩ fun _ => rfl

variable [Add τ]

theorem getJob (jobId : String) (w : World (Store τ) τ) :
    Goes (Run.getJob jobId) w [.asked (.getJob jobId)] ((Store.getJob jobId).run w.platform).1
      { w with
        clock := w.clock + w.fetchCost
        platform := ((Store.getJob jobId).run w.platform).2 } :=
  of_awake rfl
    ⟨(run_discarded w.platform).symm, (List.append_nil _).symm, (List.append_nil _).symm⟩
    fun _ => rfl

theorem sleep (duration : τ) (w : World (Store τ) τ) :
    Goes (Run.sleep duration) w [.slept duration] (.ok ())
      { w with sleeps := w.sleeps ++ [duration], clock := w.clock + duration } where
  went := ⟨rfl, (List.append_nil _).symm, rfl⟩
  through k hk := by
    have hother : (w.cancelling k).cancelAt ≠ some ((w.cancelling k).sleeps.length + 1) :=
      fun h => absurd (hk _ h) (Nat.lt_irrefl _)
    rw [run_sleep_cases, if_neg hother]
    rfl
  cut before d later hc := by
    obtain ⟨rfl, hd, -⟩ : before = [] ∧ Moment.slept duration = .slept d ∧ later = [] := by
      cases before with
      | nil => simpa using hc
      | cons m before => simp at hc
    cases hd
    exact ⟨_, (run_sleep_cases _ duration).trans (if_pos rfl), rfl, (List.append_nil _).symm, rfl⟩

end Goes

/-- What a look at a job shows. -/
def Store.Shows (s : Store τ) (jobId : String) (status : JobStatus) : Prop :=
  ∃ track, s.jobs.find? jobId = some track ∧ track.current.status = status

/-- The pace of what does not create routes, from a state of the platform on: what a look at a job
shows is told at once, unless there is no such job, and each sleep comes right after a look at a job
that goes on. -/
structure Paced (s : Store τ) (c : List (Moment τ)) : Prop where
  sleeps : ∀ before d later, c = before ++ .slept d :: later →
    ∃ earlier jobId status attempt, (status = .queued ∨ status = .running) ∧
      before = earlier ++ [.asked (.getJob jobId), .told (.jobPoll jobId status attempt)]
  looks : ∀ before jobId later, c = before ++ .asked (.getJob jobId) :: later →
    (replay s (requestsIn before)).jobs.find? jobId = none ∨
      ∃ status attempt rest, (replay s (requestsIn before)).Shows jobId status ∧
        later = .told (.jobPoll jobId status attempt) :: rest
  creates : ∀ q ∈ requestsIn c, q.key? = none

/-- What asks neither for a job nor for a new route, and does not sleep. -/
def Moment.isQuiet : Moment τ → Bool
  | .asked (.getJob _) | .asked (.createRoute _ _ _ _) | .slept _ => false
  | .asked _ | .told _ => true

namespace Paced

variable {s : Store τ} {c c' : List (Moment τ)}

theorem of_quiet (s : Store τ) (h : ∀ m ∈ c, m.isQuiet = true) : Paced s c where
  sleeps before d later hc := by
    subst hc
    exact nomatch h (.slept d) (by simp)
  looks before jobId later hc := by
    subst hc
    exact nomatch h (.asked (.getJob jobId)) (by simp)
  creates q hq := by
    obtain ⟨m, hm, hask⟩ := List.mem_filterMap.mp hq
    cases m with
    | told | slept => exact nomatch hask
    | asked q' =>
      cases hask
      have hquiet := h _ hm
      cases q with
      | createRoute => exact nomatch hquiet
      | _ => rfl

theorem append (h : Paced s c) (h' : Paced (replay s (requestsIn c)) c') : Paced s (c ++ c') where
  sleeps before d later hc := by
    rcases Moment.split_append hc with ⟨rest, hfirst, -⟩ | ⟨first, rfl, hsecond⟩
    · exact h.sleeps before d rest hfirst
    · obtain ⟨earlier, jobId, status, attempt, hstatus, rfl⟩ := h'.sleeps first d later hsecond
      exact ⟨c ++ earlier, jobId, status, attempt, hstatus, by rw [List.append_assoc]⟩
  looks before jobId later hc := by
    rcases Moment.split_append hc with ⟨rest, hfirst, rfl⟩ | ⟨first, rfl, hsecond⟩
    · refine (h.looks before jobId rest hfirst).imp_right ?_
      rintro ⟨status, attempt, told, hshows, rfl⟩
      exact ⟨status, attempt, told ++ c', hshows, rfl⟩
    · rw [Moment.requestsIn_append, replay_append]
      exact h'.looks first jobId later hsecond
  creates q hq := by
    rw [Moment.requestsIn_append] at hq
    exact (List.mem_append.mp hq).elim (h.creates q) (h'.creates q)

/-- A look at a job that there is not. -/
theorem unknown {jobId : String} (h : s.jobs.find? jobId = none) :
    Paced s [.asked (.getJob jobId)] where
  sleeps before d later hc := by
    rcases before with _ | ⟨m, _ | ⟨m', before⟩⟩ <;> simp at hc
  looks before id later hc := by
    rcases before with _ | ⟨m, _ | ⟨m', before⟩⟩
    · cases hc
      exact .inl h
    all_goals simp at hc
  creates q hq := by
    cases hq with
    | head => rfl
    | tail _ hq => cases hq

variable {jobId : String} {status : JobStatus}

/-- A look that is told of. -/
theorem look (hshows : s.Shows jobId status) (attempt : ℕ) :
    Paced s [.asked (.getJob jobId), .told (.jobPoll jobId status attempt)] where
  sleeps before d later hc := by
    rcases before with _ | ⟨m, _ | ⟨m', _ | ⟨m'', before⟩⟩⟩ <;> simp at hc
  looks before id later hc := by
    rcases before with _ | ⟨m, _ | ⟨m', _ | ⟨m'', before⟩⟩⟩
    · cases hc
      exact .inr ⟨status, attempt, [], hshows, rfl⟩
    all_goals simp at hc
  creates q hq := by
    cases hq with
    | head => rfl
    | tail _ hq => cases hq

/-- A sleep after a look that is told of. -/
theorem pause (hshows : s.Shows jobId status) (hstatus : status = .queued ∨ status = .running)
    (attempt : ℕ) (d : τ) :
    Paced s [.asked (.getJob jobId), .told (.jobPoll jobId status attempt), .slept d] where
  sleeps before d' later hc := by
    rcases before with _ | ⟨m, _ | ⟨m', _ | ⟨m'', before⟩⟩⟩
    · simp at hc
    · simp at hc
    · cases hc
      exact ⟨[], jobId, status, attempt, hstatus, rfl⟩
    · simp at hc
  looks before id later hc := by
    rcases before with _ | ⟨m, _ | ⟨m', _ | ⟨m'', before⟩⟩⟩
    · cases hc
      exact .inr ⟨status, attempt, [.slept d], hshows, rfl⟩
    all_goals simp at hc
  creates q hq := by
    cases hq with
    | head => rfl
    | tail _ hq => cases hq

end Paced

/-- An operation that goes at its pace from every world on, and that can be cancelled. -/
def Interruptible (x : Run (Store τ) τ α) : Prop :=
  ∀ w, ∃ c r v, Goes x w c r v ∧ Paced w.platform c

namespace Interruptible

variable {x : Run (Store τ) τ α} {f : α → Run (Store τ) τ β}

theorem bind (hx : Interruptible x) (hf : ∀ a, Interruptible (f a)) : Interruptible (x >>= f) := by
  intro w
  obtain ⟨c, r, v, hgoes, hpaced⟩ := hx w
  cases r with
  | error e => exact ⟨c, .error e, v, hgoes.bind_error, hpaced⟩
  | ok a =>
    obtain ⟨c', r', u, hgoes', hpaced'⟩ := hf a v
    rw [hgoes.went.platform] at hpaced'
    exact ⟨c ++ c', r', u, hgoes.bind hgoes', hpaced.append hpaced'⟩

theorem attempt {handle : Except (Failure τ) α → Run (Store τ) τ β}
    (hpass : handle (.error .cancelled) = Run.fail .cancelled) (hx : Interruptible x)
    (hf : ∀ r, Interruptible (handle r)) : Interruptible (attempt x >>= handle) := by
  intro w
  obtain ⟨c, r, v, hgoes, hpaced⟩ := hx w
  obtain ⟨c', r', u, hgoes', hpaced'⟩ := hf r v
  rw [hgoes.went.platform] at hpaced'
  exact ⟨c ++ c', r', u, hgoes.attempt hpass hgoes', hpaced.append hpaced'⟩

theorem chained : Chained (Interruptible (τ := τ)) where
  pure a w := ⟨[], .ok a, w, .pure a w, .of_quiet _ (by simp)⟩
  throw e w := ⟨[], .error e, w, .throw e w, .of_quiet _ (by simp)⟩
  bind := bind
  surroundings free hg w := by
    obtain ⟨c, r, v, hgoes, hpaced⟩ := hg w w
    exact ⟨c, r, v, hgoes.get_bind fun k => free w w.platform k, hpaced⟩

theorem emit (event : Event) : Interruptible (Run.emit (τ := τ) event) :=
  fun w => ⟨_, _, _, .emit event w, .of_quiet _ (by simp [Moment.isQuiet])⟩

theorem page (resource : Resource) (filters : Filters) (n : Int) :
    Interruptible (Run.listResources (σ := Store τ) resource filters n) :=
  fun w => ⟨_, _, _, .onPlatform (.listResources resource filters n)
    (fun s => (run_discarded s).symm) w, .of_quiet _ (by simp [Moment.isQuiet])⟩

theorem deletion (routeId : String) : Interruptible (Run.deleteRoute (σ := Store τ) routeId) :=
  fun w => ⟨_, _, _, .onPlatform (.deleteRoute routeId) (fun s => (run_discarded s).symm) w,
    .of_quiet _ (by simp [Moment.isQuiet])⟩

section Looks

variable {jobId : String} {status : JobStatus} {s : Store τ} {u : World (Store τ) τ}
  (hshows : s.Shows jobId status) (hu : u.platform = replay s [.getJob jobId]) (attempt : ℕ)
include hshows hu

/-- What goes on after a look that is told of. -/
theorem told {rest : Run (Store τ) τ α} (hrest : Interruptible rest) :
    ∃ c r v, Goes (Run.emit (.jobPoll jobId status attempt) >>= fun _ => rest) u c r v ∧
      Paced s ([.asked (.getJob jobId)] ++ c) := by
  obtain ⟨c, r, v, hgoes, hpaced⟩ :=
    hrest { u with events := u.events ++ [.jobPoll jobId status attempt] }
  refine ⟨_, r, v, (Goes.emit _ u).bind hgoes, ?_⟩
  exact (Paced.look hshows attempt).append (hu ▸ hpaced)

variable [Add τ]

/-- What goes on after a look at a job that is not over, and a sleep. -/
theorem paused {rest : Run (Store τ) τ α} (hrest : Interruptible rest)
    (hstatus : status = .queued ∨ status = .running) (d : τ) :
    ∃ c r v, Goes (do Run.emit (.jobPoll jobId status attempt); Run.sleep d; rest) u c r v ∧
      Paced s ([.asked (.getJob jobId)] ++ c) := by
  obtain ⟨c, r, v, hgoes, hpaced⟩ := hrest
    { u with
      events := u.events ++ [.jobPoll jobId status attempt]
      sleeps := u.sleeps ++ [d]
      clock := u.clock + d }
  refine ⟨_, r, v, (Goes.emit _ u).bind ((Goes.sleep d _).bind hgoes), ?_⟩
  exact (Paced.pause hshows hstatus attempt d).append (hu ▸ hpaced)

variable [Sub τ] [OfNat τ 0] [LE τ] [LT τ] [DecidableLE τ] [DecidableLT τ]

/-- What goes on after a look at a job that is not over: the end of the wait, where its time is up, or
a sleep. -/
theorem pending {rest : Run (Store τ) τ Job} (hrest : Interruptible rest)
    (hstatus : status = .queued ∨ status = .running) (interval limit deadline : τ) :
    ∃ c r v, Goes (do
        Run.emit (.jobPoll jobId status attempt)
        let remaining := deadline - (← get).clock
        if remaining ≤ 0 then
          Run.emit (.jobTimeout jobId attempt)
          throw (.pollTimeout jobId limit)
        Run.sleep (Poller.pause interval remaining)
        rest) u c r v ∧
      Paced s ([.asked (.getJob jobId)] ++ c) := by
  by_cases hover : deadline - u.clock ≤ 0
  · have hend : Interruptible (do
        Run.emit (.jobTimeout jobId attempt)
        throw (.pollTimeout jobId limit) : Run (Store τ) τ Job) :=
      chained.bind (emit _) fun _ => chained.throw _
    obtain ⟨c, r, v, hgoes, hpaced⟩ := told hshows hu attempt hend
    refine ⟨c, r, v, hgoes.congr fun k => ?_, hpaced⟩
    rw [run_bind_ok (x := Run.emit _) rfl, run_bind_ok (x := get) rfl]
    exact congrArg (fun x : Run (Store τ) τ Job => x.run _) (if_pos hover)
  · obtain ⟨c, r, v, hgoes, hpaced⟩ := paused hshows hu attempt hrest hstatus
      (Poller.pause interval (deadline - u.clock))
    refine ⟨c, r, v, hgoes.congr fun k => ?_, hpaced⟩
    rw [run_bind_ok (x := Run.emit _) rfl, run_bind_ok (x := get) rfl]
    exact congrArg (fun x : Run (Store τ) τ Job => x.run _) (if_neg hover)

end Looks

variable [Add τ] [Sub τ] [OfNat τ 0] [LE τ] [LT τ] [DecidableLE τ] [DecidableLT τ]

/-- A wait goes round by round: it looks, tells of that, and then ends or sleeps. -/
theorem poll (jobId : String) (interval limit deadline : τ) (fuel attempts : ℕ) :
    Interruptible (Poller.poll (σ := Store τ) jobId interval limit deadline fuel attempts) := by
  induction fuel generalizing attempts with
  | zero => exact chained.throw .stalled
  | succ fuel ih =>
    intro w
    have hlook := Goes.getJob jobId w
    have hu := hlook.went.platform
    cases hjob : w.platform.jobs.find? jobId with
    | none =>
      rw [Store.run_getJob_unknown hjob] at hlook
      exact ⟨_, _, _, hlook.bind_error, .unknown hjob⟩
    | some track =>
      rw [Store.run_getJob hjob] at hlook hu
      have hshows : w.platform.Shows jobId track.current.status := ⟨track, hjob, rfl⟩
      generalize track.current = job at hlook hshows
      obtain ⟨id, status, details⟩ := job
      cases status with
      | finished =>
        have hend : Interruptible (do
            Run.emit (.jobFinished jobId (attempts + 1))
            return ⟨id, .finished, details⟩ : Run (Store τ) τ Job) :=
          chained.bind (emit _) fun _ => chained.pure _
        obtain ⟨c, r, v, hgoes, hpaced⟩ := told hshows hu (attempts + 1) hend
        exact ⟨_, r, v, hlook.bind hgoes, hpaced⟩
      | failed =>
        have hend : Interruptible (do
            Run.emit (.jobFailed jobId (attempts + 1))
            throw (Poller.failureOf ⟨id, .failed, details⟩) : Run (Store τ) τ Job) :=
          chained.bind (emit _) fun _ => chained.throw _
        obtain ⟨c, r, v, hgoes, hpaced⟩ := told hshows hu (attempts + 1) hend
        exact ⟨_, r, v, hlook.bind hgoes, hpaced⟩
      | queued =>
        obtain ⟨c, r, v, hgoes, hpaced⟩ := pending hshows hu (attempts + 1) (ih (attempts + 1)) (.inl rfl)
          interval limit deadline
        exact ⟨_, r, v, hlook.bind hgoes, hpaced⟩
      | running =>
        obtain ⟨c, r, v, hgoes, hpaced⟩ := pending hshows hu (attempts + 1) (ih (attempts + 1)) (.inr rfl)
          interval limit deadline
        exact ⟨_, r, v, hlook.bind hgoes, hpaced⟩

theorem awaitCompletion (p : Poller τ) (jobId : String) (interval timeout : Option τ) :
    Interruptible (p.awaitCompletion (σ := Store τ) jobId interval timeout) :=
  chained.surroundings (fun _ _ _ => rfl) fun _ => poll jobId _ _ _ _ 0

theorem awaitJob (p : Poller τ) (job : Job) : Interruptible (p.awaitJob (σ := Store τ) job) := by
  unfold Poller.awaitJob
  cases job.status with
  | finished => exact chained.pure job
  | failed => exact chained.throw _
  | queued | running => exact awaitCompletion p job.id none none

variable (o : Orchestrator τ)

theorem deleteRoute (route : Route) : Interruptible (o.deleteRoute (σ := Store τ) route) :=
  (deletion route.id).bind fun job => (awaitJob o.poller job).bind fun _ => emit _

theorem delete (domain : String) (host path : Option String) :
    Interruptible (o.delete (σ := Store τ) domain host path) :=
  (chained.resolveDomain page o.organizationId domain).bind fun resolved =>
    (chained.resolveRoute (chained.findRoute page resolved host path)).bind fun route =>
      deleteRoute o route

theorem deleteUnused (route : Route) : Interruptible (o.deleteUnused (σ := Store τ) route) := by
  refine (chained.listFirst page .routeApplications [(.routeId, route.id)]).bind fun found => ?_
  cases found with
  | some app => exact (emit _).bind fun _ => chained.pure false
  | none => exact (deleteRoute o route).bind fun _ => chained.pure true

/-- A cancellation is not a failure of the platform, so a sweep does not record it. -/
theorem sweepRoute (sofar : Orchestrator.Sweep τ) (route : Route) :
    Interruptible (o.sweepRoute (σ := Store τ) sofar route) := by
  unfold Orchestrator.sweepRoute
  split
  · refine attempt rfl (deleteUnused o route) fun outcome => ?_
    split
    · exact chained.pure _
    · exact chained.pure _
    · split
      · exact chained.pure _
      · exact chained.throw _
  · exact (emit _).bind fun _ => chained.pure sofar

theorem deleteOrphanedRoutes : Interruptible (o.deleteOrphanedRoutes (σ := Store τ)) := by
  refine (chained.requireSpace o).bind fun spaceId => ?_
  refine (chained.listAll page .spaceRoutes [(.spaceId, spaceId)]).bind fun routes => ?_
  refine (chained.foldlM (sweepRoute o) routes _).bind fun swept => ?_
  split
  · exact chained.pure _
  · exact chained.throw _

end Interruptible

namespace Store

variable {s : Store τ} {q : Request} {requests : List Request} {r : Route}

/-- A look that shows the deletion of a route finished. -/
def Finishes (s : Store τ) (q : Request) (routeId : String) : Prop :=
  ∃ jobId track, q = .getJob jobId ∧ s.jobs.find? jobId = some track ∧
    track.current.status = .finished ∧ track.route = some routeId

/-- Some of the requests is a look that shows the deletion of a route finished. -/
def SeenFinished (s : Store τ) (requests : List Request) (routeId : String) : Prop :=
  ∃ before q later, requests = before ++ q :: later ∧ (replay s before).Finishes q routeId

theorem seenFinished_cons {routeId : String} : s.SeenFinished (q :: requests) routeId ↔
    s.Finishes q routeId ∨ (q.after s).SeenFinished requests routeId := by
  constructor
  · rintro ⟨before, q', later, hsplit, hfinishes⟩
    rcases before with _ | ⟨q₀, before⟩ <;> cases hsplit
    · exact .inl hfinishes
    · exact .inr ⟨before, q', later, rfl, hfinishes⟩
  · rintro (hfinishes | ⟨before, q', later, rfl, hfinishes⟩)
    · exact ⟨[], q, requests, rfl, hfinishes⟩
    · exact ⟨q :: before, q', later, rfl, hfinishes⟩

theorem finishes_getJob {jobId routeId : String} {t : JobTrack}
    (ht : s.jobs.find? jobId = some t) : s.Finishes (.getJob jobId) routeId ↔
      t.current.status = .finished ∧ t.route = some routeId := by
  constructor
  · rintro ⟨_, t', heq, ht', hshown⟩
    cases heq
    cases ht.symm.trans ht'
    exact hshown
  · exact fun hshown => ⟨jobId, t, rfl, ht, hshown⟩

/-- A look takes away the route whose deletion it shows finished, and no other. -/
theorem mem_routes_look {t : JobTrack} : r ∈ (s.look t).routes.items ↔
    r ∈ s.routes.items ∧ ¬(t.current.status = .finished ∧ t.route = some r.id) := by
  by_cases hfinished : t.current.status = .finished
  · cases hroute : t.route with
    | none =>
      rw [look_idle hfinished hroute]
      exact (and_iff_left fun ⟨_, h⟩ => nomatch h).symm
    | some routeId =>
      rw [look_dropping hfinished hroute]
      have hdropped : r ∈ (s.routes.erase routeId).items ↔ r ∈ s.routes.items ∧ r.id ≠ routeId := by
        simp [Register.erase, Keyed.key]
      refine hdropped.trans (and_congr_right fun _ => not_congr ?_)
      rw [and_iff_right hfinished, Option.some_inj]
      exact eq_comm
  · rw [look_pending hfinished]
    exact (and_iff_left fun h => hfinished h.1).symm

/-- What does not ask for a route leaves all routes but the one whose deletion it shows finished. -/
theorem mem_routes_after (h : q.key? = none) :
    r ∈ (q.after s).routes.items ↔ r ∈ s.routes.items ∧ ¬s.Finishes q r.id := by
  have hother {routes : Register Route} (hsame : routes = s.routes)
      (hq : ∀ jobId, q ≠ .getJob jobId) :
      r ∈ routes.items ↔ r ∈ s.routes.items ∧ ¬s.Finishes q r.id := by
    rw [hsame]
    refine (and_iff_left ?_).symm
    rintro ⟨jobId, _, hlook, -⟩
    exact hq jobId hlook
  cases q with
  | createRoute => cases h
  | listResources resource filters page =>
    rw [Request.after, Request.perform, run_discarded]
    exact hother rfl (by simp)
  | deleteRoute routeId =>
    rw [Request.after, Request.perform, run_discarded]
    exact hother (routes_deleteRoute routeId s) (by simp)
  | associateRoute applicationId routeId =>
    exact hother (routes_associateRoute applicationId routeId s) (by simp)
  | removeRoute applicationId routeId => exact hother rfl (by simp)
  | getJob jobId =>
    rw [Request.after, Request.perform, run_discarded]
    change r ∈ ((getJob jobId).run s).2.routes.items ↔ _
    cases hjob : s.jobs.find? jobId with
    | none =>
      rw [run_getJob_unknown hjob]
      refine (and_iff_left ?_).symm
      rintro ⟨_, t, heq, ht, -⟩
      cases heq
      cases hjob.symm.trans ht
    | some t =>
      rw [run_getJob hjob, finishes_getJob hjob]
      exact mem_routes_look

theorem mem_routes_replay (h : ∀ q ∈ requests, q.key? = none) :
    r ∈ (replay s requests).routes.items ↔
      r ∈ s.routes.items ∧ ¬s.SeenFinished requests r.id := by
  induction requests generalizing s with
  | nil =>
    refine (and_iff_left ?_).symm
    rintro ⟨before, q, later, hsplit, -⟩
    exact absurd hsplit (by simp)
  | cons q requests ih =>
    have hrest := ih (s := q.after s) fun q' hq' => h q' (List.mem_cons_of_mem q hq')
    refine hrest.trans ?_
    rw [mem_routes_after (h q List.mem_cons_self), seenFinished_cons, not_or, and_assoc]

end Store

/-- A chronicle with some sleeps has a part up to each of them. -/
theorem Moment.exists_sleep {c : List (Moment τ)} {k : ℕ} (hpos : 1 ≤ k)
    (hk : k ≤ (sleepsIn c).length) :
    ∃ before d later, c = before ++ .slept d :: later ∧ (sleepsIn before).length + 1 = k := by
  induction c generalizing k with
  | nil =>
    have : k ≤ 0 := hk
    omega
  | cons m c ih =>
    cases m with
    | asked q =>
      obtain ⟨before, d, later, rfl, hbefore⟩ := ih hpos hk
      exact ⟨.asked q :: before, d, later, rfl, hbefore⟩
    | told event =>
      obtain ⟨before, d, later, rfl, hbefore⟩ := ih hpos hk
      exact ⟨.told event :: before, d, later, rfl, hbefore⟩
    | slept d =>
      have hk : k ≤ (sleepsIn c).length + 1 := hk
      by_cases hfirst : k = 1
      · exact ⟨[], d, c, rfl, hfirst.symm⟩
      · obtain ⟨before, d', later, rfl, hbefore⟩ := ih (k := k - 1) (by omega) (by omega)
        refine ⟨.slept d :: before, d', later, rfl, ?_⟩
        change (sleepsIn before).length + 1 + 1 = k
        omega

/-- How an operation ends when its sleep of some number is cancelled, of all that it does if none is.
It ends there and says so, and it has done what it does up to that sleep. The routes that are gone are
those whose deletion a look before the sleep showed finished. -/
structure CutAt (w : World (Store τ) τ) (c : List (Moment τ)) (k : ℕ)
    (ended : Except (Failure τ) α × World (Store τ) τ) : Prop where
  failure : ended.1 = .error .cancelled
  stops : ∃ before d later, c = before ++ .slept d :: later ∧ (sleepsIn before).length + 1 = k ∧
    w.Went ended.2 (before ++ [.slept d]) ∧
    ended.2.platform.calls = w.platform.calls ++ requestsIn before ∧
    ∀ r, r ∈ ended.2.platform.routes.items ↔
      r ∈ w.platform.routes.items ∧ ¬w.platform.SeenFinished (requestsIn before) r.id

/-- Whatever an operation does, has an order, in which it sleeps only right after a look at a job that
goes on. To cancel one of its sleeps ends it there, and to cancel a later one changes nothing. -/
def StopsWhenCancelled (x : Run (Store τ) τ α) : Prop :=
  ∀ w : World (Store τ) τ, ∃ c,
    let uncancelled := x.run (w.cancelling none)
    w.Went uncancelled.2 c ∧ Paced w.platform c ∧ ∀ k, 1 ≤ k →
      let cancelled := x.run (w.cancelling (some (w.sleeps.length + k)))
      (k ≤ (sleepsIn c).length → CutAt w c k cancelled) ∧
        ((sleepsIn c).length < k → cancelled =
          (uncancelled.1, uncancelled.2.cancelling (some (w.sleeps.length + k))))

theorem Interruptible.stopsWhenCancelled {x : Run (Store τ) τ α} (h : Interruptible x) :
    StopsWhenCancelled x := by
  intro w
  obtain ⟨c, r, v, hgoes, hpaced⟩ := h w
  have hnone : x.run (w.cancelling none) = (r, v.cancelling none) := hgoes.through none nofun
  refine ⟨c, ?_, hpaced, fun k hpos => ⟨fun hk => ?_, fun hk => ?_⟩⟩
  · rw [hnone]
    exact ⟨hgoes.went.platform, hgoes.went.events, hgoes.went.sleeps⟩
  · obtain ⟨before, d, later, rfl, rfl⟩ := Moment.exists_sleep hpos hk
    obtain ⟨m, hrun, hwent⟩ := hgoes.cut before d later rfl
    rw [← Nat.add_assoc, hrun]
    have hbefore : requestsIn (before ++ [.slept d]) = requestsIn before := by
      rw [Moment.requestsIn_append]
      exact List.append_nil _
    refine ⟨rfl, before, d, later, rfl, rfl, hwent, ?_, fun r => ?_⟩
    · rw [hwent.calls, hbefore]
    · rw [hwent.platform, hbefore]
      refine Store.mem_routes_replay fun q hq => hpaced.creates q ?_
      rw [Moment.requestsIn_append]
      exact List.mem_append_left _ hq
  · rw [hnone, hgoes.through _ ?_]
    · rfl
    · rintro n ⟨⟩
      omega

/-- Cancellation stops at once and adds no side effects. Where one of its sleeps is cancelled, waiting
for a job, deleting a route and deleting all orphans fail by that and by nothing else, after exactly
the requests, the events and the sleeps that come up to that sleep where none is. -/
theorem cancellation_stops [Add τ] [Sub τ] [OfNat τ 0] [LE τ] [LT τ] [DecidableLE τ] [DecidableLT τ]
    (p : Poller τ) (o : Orchestrator τ) :
    (∀ jobId interval timeout,
      StopsWhenCancelled (p.awaitCompletion jobId interval timeout)) ∧
    (∀ domain host path, StopsWhenCancelled (o.delete domain host path)) ∧
    StopsWhenCancelled o.deleteOrphanedRoutes where
  left jobId interval timeout :=
    (Interruptible.awaitCompletion p jobId interval timeout).stopsWhenCancelled
  right :=
    ⟨fun domain host path => (Interruptible.delete o domain host path).stopsWhenCancelled,
      (Interruptible.deleteOrphanedRoutes o).stopsWhenCancelled⟩

/-- Cancelled at its second sleep, a sweep has deleted the first orphan and has only started on the
other one. -/
example :
    let w := { Orchestrator.strandedWorld with patience := 9 }
    let ended := Orchestrator.strandedSpace.deleteOrphanedRoutes.run (w.cancelling (some 2))
    (ended.1 matches .error .cancelled) ∧ ended.2.sleeps = [1, 1] ∧
      ended.2.platform.routes.items.map Route.id = ["r2", "r3", "r4", "r5", "r6"] := by
  decide +kernel

end PlatformRoutes
