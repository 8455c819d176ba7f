import PlatformRoutes.Platform

namespace PlatformRoutes

variable {σ τ α β : Type}

section Act
variable {x : Act σ τ α} {next : α → Act σ τ β} {s t : σ} {a : α} {f : Failure τ}

theorem run_bind_ok (h : x.run s = (.ok a, t)) : (x >>= next).run s = (next a).run t := by
  change StateT.bind x.run (ExceptT.bindCont next) s = _
  simp only [StateT.bind, h]
  rfl

theorem run_bind_error (h : x.run s = (.error f, t)) :
    (x >>= next).run s = (.error f, t) := by
  change StateT.bind x.run (ExceptT.bindCont next) s = _
  simp only [StateT.bind, h]
  rfl

/-- An action that went well came of two that did. -/
theorem run_bind_eq_ok {b : β} {u : σ} (h : (x >>= next).run s = (.ok b, u)) :
    ∃ a t, x.run s = (.ok a, t) ∧ (next a).run t = (.ok b, u) := by
  cases hr : x.run s with
  | mk r t =>
    cases r with
    | ok a => exact ⟨a, t, rfl, by rwa [run_bind_ok hr] at h⟩
    | error f =>
      rw [run_bind_error hr] at h
      cases h

/-- An action that failed did so in its first part, or in its second after a first that went well. -/
theorem run_bind_eq_error {u : σ} (h : (x >>= next).run s = (.error f, u)) :
    x.run s = (.error f, u) ∨ ∃ a t, x.run s = (.ok a, t) ∧ (next a).run t = (.error f, u) := by
  cases hr : x.run s with
  | mk r t =>
    cases r with
    | ok a => exact .inr ⟨a, t, rfl, by rwa [run_bind_ok hr] at h⟩
    | error e =>
      rw [run_bind_error hr] at h
      cases h
      exact .inl rfl

/-- An outcome that is made of another is a failure where that is. -/
theorem run_return {r : Except (Failure τ) α} (h : x.run s = (r, t)) (make : α → β) :
    (do return make (← x) : Act σ τ β).run s = (r.map make, t) := by
  cases r with
  | ok a => exact run_bind_ok h
  | error f => exact run_bind_error h

/-- An outcome that is made of another. -/
theorem run_return_eq_ok {make : α → β} {b : β}
    (h : ((do return make (← x) : Act σ τ β).run s).1 = .ok b) :
    ∃ a t, x.run s = (.ok a, t) ∧ make a = b ∧
      ((do return make (← x) : Act σ τ β).run s).2 = t := by
  cases hr : x.run s with
  | mk outcome t =>
    cases outcome with
    | ok a =>
      have hrun : (do return make (← x) : Act σ τ β).run s = (.ok (make a), t) := run_bind_ok hr
      rw [hrun] at h ⊢
      exact ⟨a, t, rfl, Except.ok.inj h, rfl⟩
    | error f =>
      have hrun : (do return make (← x) : Act σ τ β).run s = (.error f, t) := run_bind_error hr
      rw [hrun] at h
      cases h

theorem run_attempt (s : σ) : (attempt x).run s = (.ok (x.run s).1, (x.run s).2) := rfl

theorem run_onPlatform {w : World σ τ} {r : Except (Failure τ) α} {s : σ}
    (h : x.run w.platform = (r, s)) :
    (Run.onPlatform x).run w = (r, { w with platform := s }) := by
  have hr : (x.run w.platform).1 = r := congrArg Prod.fst h
  have hs : (x.run w.platform).2 = s := congrArg Prod.snd h
  subst hr
  subst hs
  rfl

theorem run_onPlatform_eq {act : Act σ τ α} {w v : World σ τ} {r : Except (Failure τ) α}
    (h : (Run.onPlatform act).run w = (r, v)) : act.run w.platform = (r, v.platform) := by
  cases hr : act.run w.platform with
  | mk outcome s =>
    rw [run_onPlatform hr] at h
    cases h
    rfl

/-- A sleep is cancelled where its number is the one to cancel; else it moves the clock on. -/
theorem run_sleep_cases [Add τ] (w : World σ τ) (duration : τ) :
    (Run.sleep duration).run w =
      if w.cancelAt = some (w.sleeps.length + 1) then
        (.error .cancelled, { w with sleeps := w.sleeps ++ [duration] })
      else (.ok (), { w with sleeps := w.sleeps ++ [duration], clock := w.clock + duration }) := by
  rw [Run.sleep, run_bind_ok (x := modify _) rfl, run_bind_ok (x := get) rfl]
  dsimp only
  rw [List.length_append, List.length_singleton]
  by_cases h : w.cancelAt = some (w.sleeps.length + 1)
  · rw [if_pos h, if_pos (beq_iff_eq.mpr h)]
    rfl
  · rw [if_neg h, if_neg (mt beq_iff_eq.mp h)]
    rfl

/-- A sleep that nobody cancels moves the clock on. -/
theorem run_sleep [Add τ] {w : World σ τ} (h : w.cancelAt = none) (duration : τ) :
    (Run.sleep duration).run w =
      (.ok (), { w with sleeps := w.sleeps ++ [duration], clock := w.clock + duration }) := by
  rw [run_sleep_cases, h, if_neg (Option.some_ne_none _).symm]

theorem events_sleep [Add τ] (duration : τ) (w : World σ τ) :
    ((Run.sleep duration).run w).2.events = w.events := by
  rw [run_sleep_cases]
  split <;> rfl

end Act

variable {x : Run σ τ α} {f : α → Run σ τ β} {a : α} {r : Except (Failure τ) β}
  {u v w : World σ τ}

/-- Given patience enough, the operation ends with an outcome and leaves a world behind. How much
is enough may depend on the world it starts in, and more never changes anything. -/
def Ends (x : Run σ τ α) (w : World σ τ) (r : Except (Failure τ) α) (v : World σ τ) : Prop :=
  ∃ enough, ∀ n, enough ≤ n → x.run { w with patience := n } = (r, { v with patience := n })

namespace Ends

theorem of_run {r : Except (Failure τ) α}
    (h : ∀ n, x.run { w with patience := n } = (r, { v with patience := n })) : Ends x w r v :=
  ⟨0, fun n _ => h n⟩

/-- An operation ends in one way only. -/
theorem outcome_unique {r₁ r₂ : Except (Failure τ) α} (h₁ : Ends x w r₁ u) (h₂ : Ends x w r₂ v) :
    r₁ = r₂ ∧ { u with patience := 0 } = { v with patience := 0 } := by
  obtain ⟨m, hm⟩ := h₁
  obtain ⟨n, hn⟩ := h₂
  have h := (hm (max m n) (by omega)).symm.trans (hn (max m n) (by omega))
  obtain ⟨hr, hw⟩ := Prod.mk.inj h
  exact ⟨hr, congrArg (fun w : World σ τ => { w with patience := 0 }) hw⟩

theorem pure (a : α) (w : World σ τ) : Ends (pure a) w (.ok a) w := of_run fun _ => rfl

theorem throw (f : Failure τ) (w : World σ τ) : Ends (throw f : Run σ τ α) w (.error f) w :=
  of_run fun _ => rfl

theorem bind (hx : Ends x w (.ok a) v) (hf : Ends (f a) v r u) : Ends (x >>= f) w r u := by
  obtain ⟨m, hm⟩ := hx
  obtain ⟨n, hn⟩ := hf
  refine ⟨max m n, fun k hk => ?_⟩
  rw [run_bind_ok (hm k (by omega)), hn k (by omega)]

theorem bind_error {e : Failure τ} (hx : Ends x w (.error e) v) :
    Ends (x >>= f) w (.error e) v := by
  obtain ⟨m, hm⟩ := hx
  exact ⟨m, fun k hk => run_bind_error (hm k hk)⟩

/-- What looks at anything of the world but its patience. -/
theorem get_bind {g : World σ τ → Run σ τ β} (free : ∀ n, g { w with patience := n } = g w)
    (hg : Ends (g w) w r u) : Ends (get >>= g) w r u := by
  obtain ⟨m, hm⟩ := hg
  refine ⟨m, fun k hk => ?_⟩
  have hk := hm k hk
  rw [← free k] at hk
  exact hk

/-- A count of pages or polls that starts at the world's patience. -/
theorem counted {g : World σ τ → Run σ τ β} (enough : Nat)
    (hg : ∀ n, enough ≤ n →
      (g { w with patience := n }).run { w with patience := n } = (r, { u with patience := n })) :
    Ends (get >>= g) w r u :=
  ⟨enough, hg⟩

theorem attempt {e : Except (Failure τ) α} (hx : Ends x w e v) :
    Ends (attempt x) w (.ok e) v := by
  obtain ⟨m, hm⟩ := hx
  refine ⟨m, fun k hk => ?_⟩
  rw [run_attempt, hm k hk]

theorem onPlatform {act : Act σ τ α} {e : Except (Failure τ) α} {s : σ}
    (h : act.run w.platform = (e, s)) :
    Ends (Run.onPlatform act) w e { w with platform := s } :=
  of_run fun n => run_onPlatform (w := { w with patience := n }) h

theorem emit (event : Event) (w : World σ τ) :
    Ends (Run.emit event) w (.ok ()) { w with events := w.events ++ [event] } :=
  of_run fun _ => rfl

/-- A loop whose every round ends and keeps what is known of the part done so far. -/
theorem foldlM {g : β → α → Run σ τ β} {all : List α} {known : List α → β → World σ τ → Prop}
    (round : ∀ done a todo b w, all = done ++ a :: todo → known done b w →
      ∃ b' v, Ends (g b a) w (.ok b') v ∧ known (done ++ [a]) b' v)
    {done todo : List α} {b : β} (hall : all = done ++ todo) (h : known done b w) :
    ∃ b' v, Ends (todo.foldlM g b) w (.ok b') v ∧ known all b' v := by
  induction todo generalizing done b w with
  | nil =>
    rw [hall, List.append_nil]
    exact ⟨b, w, Ends.pure b w, h⟩
  | cons a todo ih =>
    obtain ⟨b', u, hround, hu⟩ := round done a todo b w hall h
    obtain ⟨final, v, hrest, hv⟩ := ih (by rw [hall, List.append_assoc]; rfl) hu
    exact ⟨final, v, hround.bind hrest, hv⟩

end Ends

end PlatformRoutes
