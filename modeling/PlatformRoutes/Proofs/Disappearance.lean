import PlatformRoutes.Proofs.Histories
import PlatformRoutes.Proofs.Untouched

namespace PlatformRoutes

namespace Store

variable {τ : Type} {s s₀ : Store τ} {t : JobTrack} {r : Route} {m : Move τ} {job : Job}
  {jobId routeId : String} {started : List (String × String)}

/-- What the jobs of a platform have to do with its routes, given the jobs that were started, each
with the route that it was started for. -/
structure Tracks (s : Store τ) (started : List (String × String)) : Prop where
  /-- A job takes nothing away but what it was started for. -/
  tied : ∀ t ∈ s.jobs.items, ∀ routeId, t.route = some routeId → (t.id, routeId) ∈ started
  /-- Jobs and their routes have numbers that are not given out again. -/
  past : ∀ p ∈ started, (∃ number < s.nextId, p.1 = jobName number) ∧
    ∃ number < s.nextId, p.2 = routeName number
  /-- While a route is stored, every job that was started for it is still to take it away. -/
  kept : ∀ p ∈ started, s.routes.contains p.2 = true →
    ∃ t, s.jobs.find? p.1 = some t ∧ t.route = some p.2

namespace Tracks

/-- Numbers that are not given out again never will be. -/
theorem past_le (h : s.Tracks started) {next : ℕ} (hnext : s.nextId ≤ next) :
    ∀ p ∈ started, (∃ number < next, p.1 = jobName number) ∧
      ∃ number < next, p.2 = routeName number := by
  intro p hp
  obtain ⟨⟨m, hm, hjob⟩, n, hn, hroute⟩ := h.past p hp
  exact ⟨⟨m, by omega, hjob⟩, n, by omega, hroute⟩

theorem tied_put (h : s.Tracks started) (hroute : ∀ routeId, t.route = some routeId →
    (t.id, routeId) ∈ started) :
    ∀ t' ∈ (s.jobs.put t).items, ∀ routeId, t'.route = some routeId → (t'.id, routeId) ∈ started := by
  intro t' ht'
  rcases Register.mem_put ht' with rfl | hold
  · exact hroute
  · exact h.tied t' hold

/-- A new route is not one that a job was started for. -/
theorem adds (h : s.Tracks started) (hid : r.id = routeName s.nextId) :
    ∀ p ∈ started, (s.routes.put r).contains p.2 = true → s.routes.contains p.2 = true := by
  intro p hp hstored
  obtain ⟨-, number, hlt, hname⟩ := h.past p hp
  have hother : Keyed.key r ≠ p.2 := by
    intro hsame
    have := routeName_injective (hid.symm.trans (hsame.trans hname))
    omega
  rwa [Register.contains, Register.find?_put, if_neg hother] at hstored

/-- A job that is scripted anew takes away what it did before. -/
theorem scripts (h : s.Tracks started)
    (hroute : t.route = (s.jobs.find? t.id).bind JobTrack.route) :
    ({ s with jobs := s.jobs.put t } : Store τ).Tracks started where
  tied := h.tied_put fun routeId hr => by
    rw [hroute, Option.bind_eq_some_iff] at hr
    obtain ⟨t', hfound, hr⟩ := hr
    obtain ⟨hmem, hid⟩ := Register.find?_eq_some_iff.mp hfound
    exact hid ▸ h.tied t' hmem routeId hr
  past := h.past
  kept p hp hstored := by
    obtain ⟨t', hfound, hr⟩ := h.kept p hp hstored
    by_cases hsame : t.id = p.1
    · refine ⟨t, by rw [Register.find?_put]; exact if_pos hsame, ?_⟩
      rw [hroute, hsame, hfound]
      exact hr
    · exact ⟨t', by rw [Register.find?_put]; exact (if_neg hsame).trans hfound, hr⟩

/-- A job that is started is tied to a route that is stored. -/
theorem deletes (h : s.Tracks started) (hs : s.Sound) (hstored : s.routes.contains routeId = true) :
    (s.deleting routeId).Tracks (started ++ [(jobName s.nextId, routeId)]) where
  tied t ht routeId' hr := by
    rcases Register.mem_put ht with rfl | hold
    · rw [deleteTrack_route] at hr
      rw [deleteTrack_id, Option.some.inj hr]
      exact List.mem_append_right _ List.mem_cons_self
    · exact List.mem_append_left _ (h.tied t hold routeId' hr)
  past p hp := by
    rcases List.mem_append.mp hp with hold | hnew
    · exact h.past_le (Nat.le_succ _) p hold
    · rw [List.mem_singleton.mp hnew]
      obtain ⟨r, hr, hid⟩ := Register.contains_iff.mp hstored
      obtain ⟨number, hlt, hname⟩ := hs.numbered r hr
      exact ⟨⟨s.nextId, Nat.lt_succ_self _, rfl⟩, number, Nat.lt_succ_of_lt hlt,
        hid.symm.trans hname⟩
  kept p hp hstored' := by
    rcases List.mem_append.mp hp with hold | hnew
    · obtain ⟨t, hfound, hr⟩ := h.kept p hold hstored'
      obtain ⟨⟨number, hlt, hname⟩, -⟩ := h.past p hold
      have hother : Keyed.key (s.deleteTrack (jobName s.nextId) routeId) ≠ p.1 := by
        intro hsame
        have := number_of_idText ((deleteTrack_id s _ routeId).symm.trans (hsame.trans hname))
        omega
      exact ⟨t, by rw [deleting, Register.find?_put, if_neg hother, hfound], hr⟩
    · rw [List.mem_singleton.mp hnew]
      exact ⟨_, find?_deleting s routeId, deleteTrack_route s _ routeId⟩

/-- A job that is seen finished is through with its route, which then is stored no more. -/
theorem looks (h : s.Tracks started) (hfound : s.jobs.find? jobId = some t) :
    (s.look t).Tracks started := by
  obtain ⟨t', hid, hroute, hjobs⟩ := look_jobs s t
  obtain ⟨hmem, htid⟩ := Register.find?_eq_some_iff.mp hfound
  refine ⟨?_, h.past_le (nextId_look s t).ge, fun p hp hstored => ?_⟩
  · rw [hjobs]
    refine h.tied_put fun routeId hr => ?_
    rw [hroute] at hr
    split at hr
    · cases hr
    · exact hid ▸ h.tied t hmem routeId hr
  · obtain ⟨r, hr, hrid⟩ := Register.contains_iff.mp hstored
    obtain ⟨t₀, ht₀, hr₀⟩ := h.kept p hp
      (Register.contains_iff.mpr ⟨r, routes_look_subset s t hr, hrid⟩)
    rw [hjobs, Register.find?_put]
    by_cases hsame : t.id = p.1
    · obtain rfl : t = t₀ := by
        rw [← hsame, show t.id = jobId from htid, hfound] at ht₀
        exact Option.some.inj ht₀
      -- Had this look shown the job finished, its route would not be stored after it.
      have hpending : t.current.status ≠ .finished := by
        intro hfinished
        rw [look_dropping hfinished hr₀] at hr
        have hleft := (List.mem_filter.mp hr).2
        simp [hrid] at hleft
      rw [if_neg hpending] at hroute
      exact ⟨t', if_pos (hid.trans hsame), hroute.trans hr₀⟩
    · have hother : Keyed.key t' ≠ p.1 := fun h => hsame (hid.symm.trans h)
      exact ⟨t₀, (if_neg hother).trans ht₀, hr₀⟩

theorem moved (h : s.Tracks started) (hs : s.Sound) (m : Move τ) :
    (s.moved m).Tracks (started ++ (s.started? m).toList) := by
  have hquiet (hstarted : s.started? m = none) (hmoved : (s.moved m).Tracks started) :
      (s.moved m).Tracks (started ++ (s.started? m).toList) := by
    rwa [hstarted, Option.toList_none, List.append_nil]
  cases s.effect m with
  | idle _ hstarted hroutes hjobs hnext =>
    exact hquiet hstarted ⟨hjobs ▸ h.tied, h.past_le hnext, fun p hp hstored =>
      hjobs ▸ h.kept p hp (hroutes ▸ hstored)⟩
  | adds r _ hstarted hid _ hroutes hjobs hnext =>
    exact hquiet hstarted ⟨hjobs ▸ h.tied, h.past_le (hnext ▸ Nat.le_succ _), fun p hp hstored =>
      hjobs ▸ h.kept p hp (h.adds hid p hp (hroutes ▸ hstored))⟩
  | scripts t _ hstarted hroute hroutes hjobs hnext =>
    have hscripted := h.scripts hroute
    exact hquiet hstarted ⟨hjobs ▸ hscripted.tied, h.past_le hnext.ge, fun p hp hstored =>
      hjobs ▸ hscripted.kept p hp (hroutes ▸ hstored)⟩
  | deletes routeId hmove hstored hmoved =>
    have hstarted : s.started? m = some (jobName s.nextId, routeId) := by
      rw [hmove, started?, run_deleteRoute hstored]
      rfl
    rw [hstarted, hmoved]
    exact h.deletes hs hstored
  | polls jobId t hmove hfound hmoved =>
    refine hquiet (by rw [hmove]; rfl) ?_
    rw [hmoved]
    exact looks (s := { s with calls := s.calls ++ [.getJob jobId] }) ⟨h.tied, h.past, h.kept⟩ hfound

/-- A look that shows a job finished takes away the route that the job was started for, with all that
is mapped to it, and nothing else. -/
theorem takes (h : s.Tracks started) (hstored : s.routes.contains routeId = true)
    (hstarted : (jobId, routeId) ∈ started) (hjob : ((getJob jobId).run s).1 = .ok job)
    (hfinished : job.status = .finished) :
    (s.moved (.ask (.getJob jobId))).routes = s.routes.erase routeId ∧
      (s.moved (.ask (.getJob jobId))).associations =
        s.associations.filter fun a => a.2 != routeId := by
  obtain ⟨t, hfound, hroute⟩ := h.kept _ hstarted hstored
  have hmoved := s.moved_getJob jobId
  rw [run_getJob hfound] at hjob hmoved
  cases hjob
  rw [hmoved, look_dropping hfinished hroute]
  exact ⟨rfl, rfl⟩

/-- Nothing but such a look takes a route away. -/
theorem stays (h : s.Tracks started) (hs : s.Sound) (hr : s.routes.find? r.id = some r)
    (hother : ∀ jobId job, m = .ask (.getJob jobId) → (jobId, r.id) ∈ started →
      ((getJob jobId).run s).1 = .ok job → job.status ≠ .finished) :
    (s.moved m).routes.find? r.id = some r := by
  cases s.effect m with
  | idle _ _ hroutes => rwa [hroutes]
  | adds r' _ _ hid _ hroutes =>
    obtain ⟨number, hlt, hname⟩ := hs.numbered r (Register.find?_eq_some_iff.mp hr).1
    have hnew : Keyed.key r' ≠ r.id := by
      intro hsame
      have := routeName_injective (hid.symm.trans (hsame.trans hname))
      omega
    rwa [hroutes, Register.find?_put, if_neg hnew]
  | scripts _ _ _ _ hroutes => rwa [hroutes]
  | deletes routeId _ _ hmoved =>
    rw [hmoved]
    exact hr
  | polls jobId t hmove hfound hmoved =>
    rw [hmoved]
    by_cases hfinished : t.current.status = .finished
    · cases hroute : t.route with
      | none =>
        rw [look_idle hfinished hroute]
        exact hr
      | some routeId =>
        obtain ⟨hmem, hid⟩ := Register.find?_eq_some_iff.mp hfound
        have hne : r.id ≠ routeId := by
          rintro rfl
          have hstarted : (jobId, r.id) ∈ started := hid ▸ h.tied t hmem r.id hroute
          exact hother jobId t.current hmove hstarted (by rw [run_getJob hfound]) hfinished
        rw [look_dropping hfinished hroute]
        exact (Register.find?_erase_other hne).trans hr
    · rw [look_pending hfinished]
      exact hr

end Tracks

theorem tracks_history {pageSize : ℤ} {loose : Bool}
    (hnew : (new? pageSize loose : Except (Failure τ) (Store τ)) = .ok s₀) (moves : List (Move τ)) :
    (s₀.history moves).Tracks (along started? s₀ moves) := by
  induction moves using List.reverseRecOn with
  | nil =>
    obtain ⟨-, rfl⟩ := new?_eq_ok hnew
    exact ⟨fun _ h => absurd h List.not_mem_nil, fun _ h => absurd h List.not_mem_nil,
      fun _ h => absurd h List.not_mem_nil⟩
  | append_singleton moves m ih =>
    have hsound := (reachable_iff.mpr ⟨pageSize, loose, s₀, moves, hnew, rfl⟩).sound
    rw [history_concat, along_concat]
    exact ih.moved hsound m

/-- A route that is gone never comes back under its id. -/
theorem absent_moved {number : ℕ} (hpast : number < s.nextId)
    (habsent : s.routes.find? (routeName number) = none) (m : Move τ) :
    (s.moved m).routes.find? (routeName number) = none := by
  cases hfound : (s.moved m).routes.find? (routeName number) with
  | none => rfl
  | some r =>
    obtain ⟨hmem, hid⟩ := Register.find?_eq_some_iff.mp hfound
    rcases mem_routes_moved hmem with hold | hadded
    · rw [Register.find?_eq_some_iff.mpr ⟨hold, hid⟩] at habsent
      cases habsent
    · have := routeName_injective (hid.symm.trans (addition_eq hadded).1)
      omega

/-- Whether a move that comes after some others shows a job finished that was started for a route. -/
def Takes (s₀ : Store τ) (moves : List (Move τ)) (m : Move τ) (routeId : String) : Prop :=
  ∃ jobId job, m = .ask (.getJob jobId) ∧ (jobId, routeId) ∈ along started? s₀ moves ∧
    ((getJob jobId).run (s₀.history moves)).1 = .ok job ∧ job.status = .finished

/-- Whether any of the moves that come after some others does so. -/
def Taken (s₀ : Store τ) (moves later : List (Move τ)) (routeId : String) : Prop :=
  ∃ before m, before ++ [m] <+: later ∧ Takes s₀ (moves ++ before) m routeId

theorem not_taken_nil (s₀ : Store τ) (moves : List (Move τ)) (routeId : String) :
    ¬ Taken s₀ moves [] routeId := by
  rintro ⟨before, m, hprefix, -⟩
  exact List.append_ne_nil_of_right_ne_nil before (List.cons_ne_nil m [])
    (List.prefix_nil.mp hprefix)

theorem taken_append_singleton {moves later : List (Move τ)} :
    Taken s₀ moves (later ++ [m]) routeId ↔
      Taken s₀ moves later routeId ∨ Takes s₀ (moves ++ later) m routeId := by
  constructor
  · rintro ⟨before, m', hprefix, htakes⟩
    rcases List.prefix_concat_iff.mp hprefix with hlast | hprefix
    · obtain ⟨rfl, hm⟩ := List.append_inj' hlast rfl
      cases hm
      exact .inr htakes
    · exact .inl ⟨before, m', hprefix, htakes⟩
  · rintro (⟨before, m', hprefix, htakes⟩ | htakes)
    · exact ⟨before, m', hprefix.trans (List.prefix_append later [m]), htakes⟩
    · exact ⟨later, m, List.prefix_refl _, htakes⟩

/-- How a route goes that is stored after some moves. -/
structure Goes (s₀ : Store τ) (moves : List (Move τ)) (r : Route) : Prop where
  stays : ∀ later, ¬ Taken s₀ moves later r.id →
    (s₀.history (moves ++ later)).routes.find? r.id = some r
  /-- From the first look on that shows such a job finished. -/
  gone : ∀ later, Taken s₀ moves later r.id →
    (s₀.history (moves ++ later)).routes.find? r.id = none
  /-- It goes with what is mapped to it and with nothing else. -/
  alone : ∀ m, Takes s₀ moves m r.id →
    (s₀.history (moves ++ [m])).routes.items =
      (s₀.history moves).routes.items.filter (fun r' => r'.id != r.id) ∧
    (s₀.history (moves ++ [m])).associations =
      (s₀.history moves).associations.filter (fun a => a.2 != r.id)

section Fresh

variable {pageSize : ℤ} {loose : Bool} {moves : List (Move τ)}

theorem takes_history (hnew : (new? pageSize loose : Except (Failure τ) (Store τ)) = .ok s₀)
    (hstored : (s₀.history moves).routes.contains routeId = true) (h : Takes s₀ moves m routeId) :
    (s₀.history (moves ++ [m])).routes = (s₀.history moves).routes.erase routeId ∧
      (s₀.history (moves ++ [m])).associations =
        (s₀.history moves).associations.filter fun a => a.2 != routeId := by
  obtain ⟨jobId, job, rfl, hstarted, hjob, hfinished⟩ := h
  rw [history_concat]
  exact (tracks_history hnew moves).takes hstored hstarted hjob hfinished

/-- A route is stored until it is taken away, and never after. -/
theorem find?_history (hnew : (new? pageSize loose : Except (Failure τ) (Store τ)) = .ok s₀)
    (hr : (s₀.history moves).routes.find? r.id = some r) (later : List (Move τ)) :
    (¬ Taken s₀ moves later r.id → (s₀.history (moves ++ later)).routes.find? r.id = some r) ∧
      (Taken s₀ moves later r.id → (s₀.history (moves ++ later)).routes.find? r.id = none) := by
  -- From the end, since whether a move takes the route away depends on all the jobs started before it.
  induction later using List.reverseRecOn with
  | nil =>
    rw [List.append_nil]
    exact ⟨fun _ => hr, fun h => absurd h (not_taken_nil s₀ moves r.id)⟩
  | append_singleton later m ih =>
    have hsound : ∀ moves, (s₀.history moves).Sound := fun moves =>
      (reachable_iff.mpr ⟨pageSize, loose, s₀, moves, hnew, rfl⟩).sound
    rw [taken_append_singleton, ← List.append_assoc]
    refine ⟨fun hleft => ?_, fun htaken => ?_⟩
    · rw [not_or] at hleft
      rw [history_concat]
      exact (tracks_history hnew _).stays (hsound _) (ih.1 hleft.1)
        fun jobId job hm hstarted hjob hfinished =>
          hleft.2 ⟨jobId, job, hm, hstarted, hjob, hfinished⟩
    · -- Either it was gone already, and its number is too small to be given out once more.
      by_cases hbefore : Taken s₀ moves later r.id
      · obtain ⟨number, hlt, hname⟩ :=
          (hsound moves).numbered r (Register.find?_eq_some_iff.mp hr).1
        have habsent := ih.2 hbefore
        rw [hname] at habsent ⊢
        rw [history_concat]
        refine absent_moved (hlt.trans_le ?_) habsent m
        rw [history_append]
        exact nextId_history_le _ later
      · have hstored : (s₀.history (moves ++ later)).routes.contains r.id = true := by
          rw [Register.contains, ih.1 hbefore]
          rfl
        rw [(takes_history hnew hstored (htaken.resolve_left hbefore)).1]
        exact Register.find?_erase_self

/-- A route that was added stays until a job is first seen finished that was started for it, and is
gone from then on. The look that shows it takes away that route and what is mapped to it; starting a
job changes no route and no mapping, and neither does a look that does not show one finished. -/
theorem disappearance (hnew : (new? pageSize loose : Except (Failure τ) (Store τ)) = .ok s₀)
    (moves : List (Move τ)) :
    (∀ m r, (s₀.history moves).addition? m = some r →
      (s₀.history (moves ++ [m])).routes.find? r.id = some r) ∧
    (∀ r, (s₀.history moves).routes.find? r.id = some r → Goes s₀ moves r) ∧
    (∀ routeId, (s₀.history (moves ++ [.ask (.deleteRoute routeId)])).mappings =
      (s₀.history moves).mappings) ∧
    (∀ jobId, (∀ job, ((getJob jobId).run (s₀.history moves)).1 = .ok job →
        job.status ≠ .finished) →
      (s₀.history (moves ++ [.ask (.getJob jobId)])).mappings = (s₀.history moves).mappings) := by
  refine ⟨fun m r hadded => ?_, fun r hr => ⟨fun later => (find?_history hnew hr later).1,
    fun later => (find?_history hnew hr later).2, fun m htakes => ?_⟩, fun routeId => ?_,
    fun jobId hpending => ?_⟩
  · rw [history_concat, (addition_eq hadded).2.2.1, Register.find?_put]
    exact if_pos rfl
  · have hstored : (s₀.history moves).routes.contains r.id = true := by
      rw [Register.contains, hr]
      rfl
    obtain ⟨hroutes, hassociations⟩ := takes_history hnew hstored htakes
    rw [hroutes]
    exact ⟨rfl, hassociations⟩
  · rw [history_concat, moved_deleteRoute]
    exact mappings_deleteRoute routeId _
  · rw [history_concat, moved_getJob]
    rcases getJob_cases jobId (s₀.history moves) with hsame | ⟨job, hjob, hfinished⟩
    · exact hsame
    · exact absurd hfinished (hpending job hjob)

end Fresh

def creation : List (Move ℚ) :=
  [.seed (.sharedDomain "example.com"), .ask (.createRoute "shared-domain-1" "" (some "api") none)]

/-- Two deletions of one route, of which the second is done first. -/
def overtaking : List (Move ℚ) :=
  [.seed (.deletion "route-2" [.queued, .failed] none), .ask (.deleteRoute "route-2"),
    .ask (.deleteRoute "route-2"), .ask (.associateRoute "app-9" "route-2"), .ask (.getJob "job-3"),
    .ask (.getJob "job-4")]

theorem disappearance_overtaking : ∃ s₀ : Store ℚ, new? 2 false = .ok s₀ ∧
    (s₀.history creation).routes.find? "route-2" =
      some ⟨"route-2", "shared-domain-1", "", "api", "", none⟩ ∧
    (s₀.history (creation ++ overtaking.dropLast)).routes.contains "route-2" = true ∧
    ∀ later, (s₀.history (creation ++ (overtaking ++ later))).routes.find? "route-2" = none := by
  have hnew : (new? 2 false : Except (Failure ℚ) (Store ℚ)) =
      .ok { pageSize := 2, substringFilters := false } := rfl
  have hstored : (({ pageSize := 2, substringFilters := false } : Store ℚ).history
      creation).routes.find? "route-2" =
        some ⟨"route-2", "shared-domain-1", "", "api", "", none⟩ := by decide +kernel
  have hgoes := (disappearance hnew creation).2.1
    ⟨"route-2", "shared-domain-1", "", "api", "", none⟩ hstored
  refine ⟨_, hnew, hstored, by decide +kernel, fun later => ?_⟩
  refine hgoes.gone _ ⟨overtaking.dropLast, .ask (.getJob "job-4"), ?_, "job-4",
    ⟨"job-4", .finished, none⟩, rfl, by decide +kernel, by with_unfolding_all rfl, rfl⟩
  exact List.prefix_append overtaking later

end Store

end PlatformRoutes
