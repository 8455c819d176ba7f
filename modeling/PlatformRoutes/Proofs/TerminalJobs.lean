import PlatformRoutes.Proofs.Disappearance

namespace PlatformRoutes

/-- Answers that have the same status are the same. -/
def Alike (jobs : List Job) : Prop := ∀ a ∈ jobs, ∀ b ∈ jobs, a.status = b.status → a = b

theorem Alike.withId {jobs : List Job} (h : Alike jobs) (jobId : String) :
    Alike (jobs.map fun j => { j with id := jobId }) := by
  intro a ha b hb hstatus
  obtain ⟨a', ha', rfl⟩ := List.mem_map.mp ha
  obtain ⟨b', hb', rfl⟩ := List.mem_map.mp hb
  rw [h a' ha' b' hb' hstatus]

theorem alike_scripted (jobId : String) (error : Option ErrorDetails) (statuses : List JobStatus) :
    Alike (statuses.map (Store.scriptedJob jobId error)) := by
  intro a ha b hb hstatus
  obtain ⟨status, -, rfl⟩ := List.mem_map.mp ha
  obtain ⟨status', -, rfl⟩ := List.mem_map.mp hb
  exact congrArg (Store.scriptedJob jobId error) hstatus

namespace JobTrack

variable {t : JobTrack} {i j k n : ℕ}

def answers (t : JobTrack) : List Job := t.current :: t.later

/-- After an answer that the job has finished or failed there is none of another status. -/
def Settled (t : JobTrack) : Prop :=
  (t.answers.map Job.status).Pairwise fun a b => a.isTerminal = true → b = a

instance (t : JobTrack) : Decidable t.Settled := by
  unfold Settled
  infer_instance

/-- What a look leaves of a job. -/
def looked (t : JobTrack) : JobTrack :=
  if t.current.status = .finished then { t.advance with route := none } else t.advance

theorem looked_id (t : JobTrack) : t.looked.id = t.id := by
  unfold looked
  split <;> exact t.advance_id

theorem shown_route (route : Option String) (n : ℕ) :
    ({ t with route := route } : JobTrack).shown n = t.shown n := by
  induction n generalizing t with
  | zero => rfl
  | succ n ih =>
    have hadvance : ({ t with route := route } : JobTrack).advance =
        { t.advance with route := route } := by
      unfold advance
      dsimp only
      split <;> rfl
    rw [shown, hadvance, ih, shown]

theorem shown_looked (t : JobTrack) (n : ℕ) : t.looked.shown n = t.shown (n + 1) := by
  unfold looked
  split
  · rw [shown_route, shown]
  · rw [shown]

theorem shown_iterate (t : JobTrack) (n k : ℕ) :
    (looked^[n] t).shown k = t.shown (n + k) := by
  induction n generalizing t with
  | zero => rw [Function.iterate_zero_apply, Nat.zero_add]
  | succ n ih => rw [Function.iterate_succ_apply, ih, shown_looked, Nat.add_right_comm]

theorem current_iterate (t : JobTrack) (n : ℕ) : (looked^[n] t).current = t.shown n :=
  t.shown_iterate n 0

theorem looked_route_of_finished (h : t.current.status = .finished) : t.looked.route = none := by
  rw [looked, if_pos h]

theorem iterate_route_of_none (h : t.route = none) (n : ℕ) : (looked^[n] t).route = none := by
  induction n generalizing t with
  | zero => exact h
  | succ n ih =>
    refine ih ?_
    unfold looked
    split
    · rfl
    · exact t.advance_route.trans h

/-- A job that was shown finished has no route left to take away. -/
theorem iterate_route (h : (t.shown k).status = .finished) (hk : k < n) :
    (looked^[n] t).route = none := by
  obtain ⟨d, rfl⟩ := Nat.exists_eq_add_of_lt hk
  rw [← current_iterate] at h
  rw [Nat.add_assoc, Nat.add_comm, Function.iterate_add_apply, Function.iterate_succ_apply]
  exact iterate_route_of_none (looked_route_of_finished h) d

theorem mem_answers_iff {job : Job} : job ∈ t.answers ↔ ∃ n, t.shown n = job := by
  obtain ⟨id, current, later, route⟩ := t
  constructor
  · intro h
    induction later generalizing current with
    | nil => exact ⟨0, (List.mem_singleton.mp h).symm⟩
    | cons next rest ih =>
      rcases List.mem_cons.mp h with rfl | hlater
      · exact ⟨0, rfl⟩
      · obtain ⟨n, hn⟩ := ih next hlater
        exact ⟨n + 1, hn⟩
  · rintro ⟨n, rfl⟩
    induction n generalizing current later with
    | zero => exact List.mem_cons_self
    | succ n ih =>
      cases later with
      | nil => exact ih current []
      | cons next rest => exact List.mem_cons_of_mem _ (ih next rest)

/-- Being settled is about all that is shown, also after the answers have run out. -/
theorem settled_iff : t.Settled ↔
    ∀ i j, i ≤ j → (t.shown i).status.isTerminal = true →
      (t.shown j).status = (t.shown i).status := by
  obtain ⟨id, current, later, route⟩ := t
  induction later generalizing current with
  | nil =>
    have hshown (n : ℕ) : (⟨id, current, [], route⟩ : JobTrack).shown n = current := by
      induction n with
      | zero => rfl
      | succ n ih => exact ih
    refine ⟨fun _ i j _ _ => ?_, fun _ => List.pairwise_singleton _ _⟩
    rw [hshown, hshown]
  | cons next rest ih =>
    have hcons : (⟨id, current, next :: rest, route⟩ : JobTrack).Settled ↔
        (∀ job ∈ (⟨id, next, rest, route⟩ : JobTrack).answers,
          current.status.isTerminal = true → job.status = current.status) ∧
          (⟨id, next, rest, route⟩ : JobTrack).Settled := by
      rw [Settled, answers, List.map_cons, List.pairwise_cons, List.forall_mem_map]
      rfl
    rw [hcons, ih]
    constructor
    · rintro ⟨hfirst, hrest⟩ i j hij hterminal
      cases i with
      | zero =>
        cases j with
        | zero => rfl
        | succ j => exact hfirst _ (mem_answers_iff.mpr ⟨j, rfl⟩) hterminal
      | succ i =>
        cases j with
        | zero => cases hij
        | succ j => exact hrest i j (Nat.le_of_succ_le_succ hij) hterminal
    · intro h
      refine ⟨fun job hjob hterminal => ?_, fun i j hij => h (i + 1) (j + 1) (Nat.succ_le_succ hij)⟩
      obtain ⟨n, rfl⟩ := mem_answers_iff.mp hjob
      exact h 0 (n + 1) (Nat.zero_le _) hterminal

end JobTrack

/-- Whether a move is a look at a job. -/
def Move.looksAt {τ : Type} (jobId : String) : Move τ → Bool
  | .ask (.getJob id) => id == jobId
  | _ => false

namespace Store

variable {τ : Type} {s s₀ : Store τ} {t : JobTrack} {m : Move τ} {job : Job} {jobId : String}

/-- What a move sets the looks at a job to show. -/
def tracked? (s : Store τ) : Move τ → Option JobTrack
  | .seed (.job jobId (status :: statuses) error) =>
    some ⟨jobId, scriptedJob jobId error status, statuses.map (scriptedJob jobId error),
      (s.jobs.find? jobId).bind (·.route)⟩
  | .ask (.deleteRoute routeId) =>
    if s.routes.contains routeId then some (s.deleteTrack (jobName s.nextId) routeId) else none
  | _ => none

/-- No move sets anew what the looks at a job show. -/
def Unscripted (s : Store τ) (jobId : String) (moves : List (Move τ)) : Prop :=
  ∀ t ∈ along tracked? s moves, t.id ≠ jobId

def jobScripts (s : Store τ) : Register JobTrack × Register DeleteScript :=
  (s.jobs, s.deleteScripts)

/-- What a move does to the jobs of a platform and to what is set up for deletions. -/
inductive Scripting (s : Store τ) (m : Move τ) : Prop where
  | quiet (tracked : s.tracked? m = none) (look : ∀ jobId, m.looksAt jobId = false)
      (scripts : (s.moved m).jobScripts = s.jobScripts)
  | job (t : JobTrack) (tracked : s.tracked? m = some t) (alike : Alike t.answers)
      (look : ∀ jobId, m.looksAt jobId = false)
      (scripts : (s.moved m).jobScripts = (s.jobs.put t, s.deleteScripts))
  | deletion (d : DeleteScript) (tracked : s.tracked? m = none)
      (look : ∀ jobId, m.looksAt jobId = false) (alike : Alike (d.first :: d.later))
      (scripts : (s.moved m).jobScripts = (s.jobs, s.deleteScripts.put d))
  | starts (routeId : String)
      (tracked : s.tracked? m = some (s.deleteTrack (jobName s.nextId) routeId))
      (look : ∀ jobId, m.looksAt jobId = false)
      (scripts : (s.moved m).jobScripts =
        (s.jobs.put (s.deleteTrack (jobName s.nextId) routeId), s.deleteScripts.erase routeId))
  | looks (jobId : String) (move : m = .ask (.getJob jobId))

theorem jobScripts_addRoute (domainId spaceId : String) (host path service : Option String)
    (s : Store τ) :
    ((addRoute domainId spaceId host path service).run s).2.jobScripts = s.jobScripts := by
  rw [run_addRoute]
  split <;> rfl

theorem jobScripts_createRoute (domainId spaceId : String) (host path : Option String)
    (s : Store τ) :
    ((createRoute domainId spaceId host path).run s).2.jobScripts = s.jobScripts := by
  rw [run_createRoute]
  dsimp only
  split
  · rfl
  · split
    · rfl
    · exact jobScripts_addRoute _ _ _ _ _ _

theorem jobScripts_associateRoute (applicationId routeId : String) (s : Store τ) :
    ((associateRoute applicationId routeId).run s).2.jobScripts = s.jobScripts := by
  rw [run_associateRoute]
  dsimp only
  split <;> rfl

theorem scripting_seed (s : Store τ) (seed : Seed τ) : s.Scripting (.seed seed) := by
  cases seed with
  | organization | space | privateDomain | sharedDomain | application | refused | listFailure =>
    exact .quiet rfl (fun _ => rfl) rfl
  | route => exact .quiet rfl (fun _ => rfl) (jobScripts_addRoute _ _ _ _ _ s)
  | job jobId statuses error =>
    cases statuses with
    | nil => exact .quiet rfl (fun _ => rfl) rfl
    | cons status statuses =>
      exact .job _ rfl (alike_scripted jobId error (status :: statuses)) (fun _ => rfl) rfl
  | deletion routeId statuses error =>
    cases statuses with
    | nil => exact .quiet rfl (fun _ => rfl) rfl
    | cons status statuses =>
      exact .deletion ⟨routeId, scriptedJob "" error status, statuses.map (scriptedJob "" error)⟩
        rfl (fun _ => rfl) (alike_scripted "" error (status :: statuses)) rfl

theorem scripting (s : Store τ) (m : Move τ) : s.Scripting m := by
  cases m with
  | seed seed => exact s.scripting_seed seed
  | ask q =>
    cases q with
    | listResources resource filters page =>
      have hmoved : s.moved (.ask (.listResources resource filters page)) =
          { s with calls := s.calls ++ [.listResources resource filters page] } :=
        run_discarded s
      exact .quiet rfl (fun _ => rfl) (by rw [hmoved]; rfl)
    | createRoute domainId spaceId host path =>
      have hmoved : s.moved (.ask (.createRoute domainId spaceId host path)) =
          ((createRoute domainId spaceId host path).run s).2 := run_discarded s
      exact .quiet rfl (fun _ => rfl) (by rw [hmoved, jobScripts_createRoute])
    | deleteRoute routeId =>
      have hmoved := s.moved_deleteRoute routeId
      cases hstored : s.routes.contains routeId with
      | true =>
        rw [run_deleteRoute hstored] at hmoved
        exact .starts routeId (if_pos hstored) (fun _ => rfl) (by rw [hmoved]; rfl)
      | false =>
        rw [run_deleteRoute_unknown hstored] at hmoved
        refine .quiet ?_ (fun _ => rfl) (by rw [hmoved]; rfl)
        rw [tracked?, hstored]
        rfl
    | getJob jobId => exact .looks jobId rfl
    | associateRoute applicationId routeId =>
      exact .quiet rfl (fun _ => rfl) (jobScripts_associateRoute applicationId routeId s)
    | removeRoute applicationId routeId => exact .quiet rfl (fun _ => rfl) rfl

theorem jobs_look (s : Store τ) (t : JobTrack) : (s.look t).jobs = s.jobs.put t.looked := by
  unfold JobTrack.looked
  by_cases hfinished : t.current.status = .finished
  · rw [if_pos hfinished]
    cases hroute : t.route with
    | none => rw [look_idle hfinished hroute]
    | some routeId =>
      rw [look_dropping hfinished hroute]
      rfl
  · rw [if_neg hfinished, look_pending hfinished]

theorem find?_put_other {t' : JobTrack} (hfound : s.jobs.find? jobId = some t)
    (h : t'.id ≠ jobId) : (s.jobs.put t').find? jobId = some t := by
  rw [Register.find?_put]
  exact (if_neg h).trans hfound

/-- A look moves on the job that it looks at and no other. -/
theorem find?_jobs_getJob (hfound : s.jobs.find? jobId = some t) (id : String) :
    (s.moved (.ask (.getJob id))).jobs.find? jobId =
      some (if id == jobId then t.looked else t) := by
  rw [moved_getJob]
  cases hlooked : s.jobs.find? id with
  | none =>
    have hid : id ≠ jobId := by
      rintro rfl
      rw [hfound] at hlooked
      cases hlooked
    rw [run_getJob_unknown hlooked, beq_false_of_ne hid]
    exact hfound
  | some t' =>
    obtain ⟨-, ht'⟩ := Register.find?_eq_some_iff.mp hlooked
    rw [run_getJob hlooked, jobs_look]
    by_cases hid : id = jobId
    · subst hid
      obtain rfl : t = t' := Option.some.inj (hfound.symm.trans hlooked)
      rw [Register.find?_put, beq_self_eq_true]
      exact if_pos (t.looked_id.trans ht')
    · rw [beq_false_of_ne hid]
      exact find?_put_other hfound fun hsame => hid (ht'.symm.trans (t'.looked_id.symm.trans hsame))

/-- What the looks at a job will show changes with each look and else only where it is set anew. -/
theorem find?_jobs_moved (hfound : s.jobs.find? jobId = some t)
    (hother : ∀ t', s.tracked? m = some t' → t'.id ≠ jobId) :
    (s.moved m).jobs.find? jobId = some (if m.looksAt jobId then t.looked else t) := by
  cases s.scripting m with
  | quiet _ hlook hscripts | deletion _ _ hlook _ hscripts =>
    rw [show (s.moved m).jobs = s.jobs from congrArg Prod.fst hscripts, hlook]
    exact hfound
  | job t' htracked _ hlook hscripts =>
    rw [show (s.moved m).jobs = s.jobs.put t' from congrArg Prod.fst hscripts, hlook]
    exact find?_put_other hfound (hother t' htracked)
  | starts routeId htracked hlook hscripts =>
    rw [show (s.moved m).jobs = s.jobs.put _ from congrArg Prod.fst hscripts, hlook]
    exact find?_put_other hfound (hother _ htracked)
  | looks id hmove =>
    subst hmove
    exact find?_jobs_getJob hfound id

theorem find?_jobs_tracked (h : s.tracked? m = some t) :
    (s.moved m).jobs.find? t.id = some t := by
  have hput : (s.jobs.put t).find? t.id = some t := by
    rw [Register.find?_put]
    exact if_pos rfl
  cases s.scripting m with
  | quiet htracked | deletion _ htracked =>
    rw [htracked] at h
    cases h
  | job t' htracked _ _ hscripts =>
    rw [htracked] at h
    cases h
    rw [show (s.moved m).jobs = s.jobs.put t from congrArg Prod.fst hscripts]
    exact hput
  | starts routeId htracked _ hscripts =>
    rw [htracked] at h
    cases h
    rw [show (s.moved m).jobs = s.jobs.put _ from congrArg Prod.fst hscripts]
    exact hput
  | looks id hmove =>
    subst hmove
    cases h

/-- A job that is not scripted anew moves on by one answer with each look and not otherwise. -/
theorem find?_jobs_history (hfound : s.jobs.find? jobId = some t) {moves : List (Move τ)}
    (h : s.Unscripted jobId moves) :
    (s.history moves).jobs.find? jobId =
      some (JobTrack.looked^[moves.countP (Move.looksAt jobId)] t) := by
  induction moves generalizing s t with
  | nil => exact hfound
  | cons m moves ih =>
    have hfirst := find?_jobs_moved hfound (m := m) fun t' ht' =>
      h t' (List.mem_append_left _ (Option.mem_toList.mpr ht'))
    have hrest : (s.moved m).Unscripted jobId moves :=
      fun t' ht' => h t' (List.mem_append_right _ ht')
    refine (ih hfirst hrest).trans ?_
    rw [List.countP_cons]
    split
    · rw [Function.iterate_succ_apply]
    · rfl

/-- The answers for a deletion that were set up together are alike. -/
def Matched (s : Store τ) : Prop := ∀ d ∈ s.deleteScripts.items, Alike (d.first :: d.later)

theorem Matched.deleteTrack (h : s.Matched) (jobId routeId : String) :
    Alike (s.deleteTrack jobId routeId).answers := by
  unfold Store.deleteTrack
  cases hscript : s.deleteScripts.find? routeId with
  | none =>
    intro a ha b hb _
    exact (List.mem_singleton.mp ha).trans (List.mem_singleton.mp hb).symm
  | some d =>
    obtain ⟨hmem, -⟩ := Register.find?_eq_some_iff.mp hscript
    exact (h d hmem).withId jobId

theorem Matched.moved (h : s.Matched) (m : Move τ) : (s.moved m).Matched := by
  unfold Matched
  cases s.scripting m with
  | quiet _ _ hscripts | job _ _ _ _ hscripts =>
    rw [show (s.moved m).deleteScripts = s.deleteScripts from congrArg Prod.snd hscripts]
    exact h
  | deletion d _ _ halike hscripts =>
    rw [show (s.moved m).deleteScripts = s.deleteScripts.put d from congrArg Prod.snd hscripts]
    intro d' hd'
    rcases Register.mem_put hd' with rfl | hold
    · exact halike
    · exact h d' hold
  | starts routeId _ _ hscripts =>
    rw [show (s.moved m).deleteScripts = s.deleteScripts.erase routeId from
      congrArg Prod.snd hscripts]
    exact fun d hd => h d (List.mem_of_mem_filter hd)
  | looks jobId hmove =>
    have hmoved := s.moved_getJob jobId
    subst hmove
    cases hfound : s.jobs.find? jobId with
    | none =>
      rw [run_getJob_unknown hfound] at hmoved
      rw [hmoved]
      exact h
    | some t =>
      obtain ⟨_, _, _, hlook⟩ :=
        look_frame ({ s with calls := s.calls ++ [.getJob jobId] } : Store τ) t
      rw [run_getJob hfound, hlook] at hmoved
      rw [hmoved]
      exact h

theorem matched_history {pageSize : ℤ} {loose : Bool}
    (hnew : (new? pageSize loose : Except (Failure τ) (Store τ)) = .ok s₀)
    (moves : List (Move τ)) : (s₀.history moves).Matched := by
  induction moves using List.reverseRecOn with
  | nil =>
    obtain ⟨-, rfl⟩ := new?_eq_ok hnew
    exact fun _ h => absurd h List.not_mem_nil
  | append_singleton moves m ih =>
    rw [history_concat]
    exact ih.moved m

theorem Matched.tracked (h : s.Matched) (ht : s.tracked? m = some t) : Alike t.answers := by
  cases s.scripting m with
  | quiet htracked | deletion _ htracked =>
    rw [htracked] at ht
    cases ht
  | job t' htracked halike =>
    rw [htracked] at ht
    cases ht
    exact halike
  | starts routeId htracked =>
    rw [htracked] at ht
    cases ht
    exact h.deleteTrack _ _
  | looks id hmove =>
    subst hmove
    cases ht

theorem Unscripted.before {before later : List (Move τ)}
    (h : s.Unscripted jobId (before ++ later)) : s.Unscripted jobId before := by
  intro t ht
  refine h t ?_
  rw [along_append]
  exact List.mem_append_left _ ht

theorem unscripted_looks (s : Store τ) (jobId : String) (n : ℕ) :
    s.Unscripted jobId (List.replicate n (.ask (.getJob jobId))) := by
  induction n generalizing s with
  | zero => exact fun _ h => absurd h List.not_mem_nil
  | succ n ih => exact ih _

theorem countP_looks (jobId : String) (n : ℕ) :
    (List.replicate n (.ask (.getJob jobId) : Move τ)).countP (Move.looksAt jobId) = n := by
  rw [List.countP_replicate, Move.looksAt, beq_self_eq_true, if_pos rfl]

/-- A look takes nothing away unless it shows a job finished that has a route to take. -/
theorem mappings_look (hfound : s.jobs.find? jobId = some t)
    (h : t.current.status = .finished → t.route = none) :
    (s.moved (.ask (.getJob jobId))).mappings = s.mappings := by
  rw [moved_getJob, run_getJob hfound]
  by_cases hfinished : t.current.status = .finished
  · rw [look_idle hfinished (h hfinished)]
    rfl
  · rw [look_pending hfinished]
    rfl

/-- Once a look shows a job finished or failed, all later ones show the same and take nothing away,
as long as no move sets anew what they show. -/
def StaysTerminal (s : Store τ) (jobId : String) : Prop :=
  ∀ before later, s.Unscripted jobId (before ++ .ask (.getJob jobId) :: later) →
    ∀ job, ((getJob jobId).run (s.history before)).1 = .ok job → job.status.isTerminal = true →
      ((getJob jobId).run (s.history (before ++ .ask (.getJob jobId) :: later))).1 = .ok job ∧
        (s.history (before ++ .ask (.getJob jobId) :: later ++ [.ask (.getJob jobId)])).mappings =
          (s.history (before ++ .ask (.getJob jobId) :: later)).mappings

/-- How the looks at a job go on from the answers that were set up for it. -/
structure KeepsTo (s : Store τ) (t : JobTrack) : Prop where
  /-- They show the answers in their order, and the last one from then on. -/
  shows : ∀ moves, s.Unscripted t.id moves →
    ((getJob t.id).run (s.history moves)).1 = .ok (t.shown (moves.countP (Move.looksAt t.id)))
  /-- After one that showed the job finished, they take nothing away. -/
  spent : ∀ moves n, s.Unscripted t.id moves → n < moves.countP (Move.looksAt t.id) →
    (t.shown n).status = .finished →
      (s.history (moves ++ [.ask (.getJob t.id)])).mappings = (s.history moves).mappings
  /-- What is terminal stays so just where the answers say so. -/
  stays : s.StaysTerminal t.id ↔ t.Settled

section Tracked

variable (hfound : s.jobs.find? t.id = some t)

include hfound

theorem shown_history {moves : List (Move τ)} (h : s.Unscripted t.id moves) :
    ((getJob t.id).run (s.history moves)).1 =
      .ok (t.shown (moves.countP (Move.looksAt t.id))) := by
  rw [run_getJob (find?_jobs_history hfound h), JobTrack.current_iterate]

theorem mappings_history {moves : List (Move τ)} {n : ℕ} (h : s.Unscripted t.id moves)
    (hn : n < moves.countP (Move.looksAt t.id)) (hfinished : (t.shown n).status = .finished) :
    (s.history (moves ++ [.ask (.getJob t.id)])).mappings = (s.history moves).mappings := by
  rw [history_concat]
  exact mappings_look (find?_jobs_history hfound h) fun _ => JobTrack.iterate_route hfinished hn

theorem staysTerminal_of_settled (halike : Alike t.answers) (hsettled : t.Settled) :
    s.StaysTerminal t.id := by
  intro before later h job hjob hterminal
  have hlooks : (before ++ .ask (.getJob t.id) :: later).countP (Move.looksAt t.id) =
      before.countP (Move.looksAt t.id) + (later.countP (Move.looksAt t.id) + 1) := by
    rw [List.countP_append, List.countP_cons_of_pos]
    exact beq_self_eq_true t.id
  rw [shown_history hfound h.before] at hjob
  cases hjob
  have hstatus := JobTrack.settled_iff.mp hsettled _ _
    (Nat.le_add_right _ (later.countP (Move.looksAt t.id) + 1)) hterminal
  have hsame := halike _ (JobTrack.mem_answers_iff.mpr ⟨_, rfl⟩) _
    (JobTrack.mem_answers_iff.mpr ⟨_, rfl⟩) hstatus
  refine ⟨by rw [shown_history hfound h, hlooks, hsame], ?_⟩
  rw [history_concat]
  refine mappings_look (find?_jobs_history hfound h) fun hfinished => ?_
  -- The look that shows it finished now shows what was shown before, and that took the route.
  rw [JobTrack.current_iterate, hlooks, hsame] at hfinished
  refine JobTrack.iterate_route hfinished ?_
  rw [hlooks]
  omega

theorem settled_of_staysTerminal (h : s.StaysTerminal t.id) : t.Settled := by
  refine JobTrack.settled_iff.mpr fun i j hij hterminal => ?_
  rcases hij.eq_or_lt with rfl | hlt
  · rfl
  · obtain ⟨d, rfl⟩ := Nat.exists_eq_add_of_lt hlt
    have hlooks : List.replicate i (.ask (.getJob t.id) : Move τ) ++
        .ask (.getJob t.id) :: List.replicate d (.ask (.getJob t.id)) =
          List.replicate (i + d + 1) (.ask (.getJob t.id)) := by
      rw [← List.replicate_succ, List.replicate_append_replicate, Nat.add_assoc]
    have hshown (n : ℕ) := shown_history hfound (unscripted_looks s t.id n)
    simp only [countP_looks] at hshown
    have hlater := (h _ _ (hlooks ▸ unscripted_looks s t.id _) _ (hshown i) hterminal).1
    rw [hlooks, hshown] at hlater
    exact congrArg Job.status (Except.ok.inj hlater)

end Tracked

/-- Whatever sets up the answers of a job, the looks at it keep to them, whatever comes between. -/
theorem looks_keep_to_script {pageSize : ℤ} {loose : Bool}
    (hnew : (new? pageSize loose : Except (Failure τ) (Store τ)) = .ok s₀)
    (moves : List (Move τ)) (ht : (s₀.history moves).tracked? m = some t) :
    (s₀.history (moves ++ [m])).KeepsTo t := by
  rw [history_concat]
  have hfound := find?_jobs_tracked ht
  have halike := (matched_history hnew moves).tracked ht
  exact ⟨fun _ => shown_history hfound, fun _ _ => mappings_history hfound,
    settled_of_staysTerminal hfound, staysTerminal_of_settled hfound halike⟩

/-- A route that is in use, with a script for its deletion. -/
def scriptedDeletion (statuses : List JobStatus) : List (Move ℚ) :=
  creation ++ [.ask (.associateRoute "app-9" "route-2"), .seed (.deletion "route-2" statuses none)]

theorem looks_keep_to_script_failing : ∃ s₀ : Store ℚ, new? 2 false = .ok s₀ ∧
    (s₀.history (scriptedDeletion [.running, .failed, .failed])).tracked?
        (.ask (.deleteRoute "route-2")) =
      some ⟨"job-3", ⟨"job-3", .running, none⟩,
        [⟨"job-3", .failed, none⟩, ⟨"job-3", .failed, none⟩], some "route-2"⟩ ∧
    (s₀.history (scriptedDeletion [.running, .failed, .failed] ++
      [.ask (.deleteRoute "route-2")])).StaysTerminal "job-3" := by
  have hnew : (new? 2 false : Except (Failure ℚ) (Store ℚ)) =
      .ok { pageSize := 2, substringFilters := false } := rfl
  have htracked : (({ pageSize := 2, substringFilters := false } : Store ℚ).history
      (scriptedDeletion [.running, .failed, .failed])).tracked? (.ask (.deleteRoute "route-2")) =
        some ⟨"job-3", ⟨"job-3", .running, none⟩,
          [⟨"job-3", .failed, none⟩, ⟨"job-3", .failed, none⟩], some "route-2"⟩ := by
    decide +kernel
  exact ⟨_, hnew, htracked, (looks_keep_to_script hnew _ htracked).stays.mpr (by decide)⟩

/-- Not every job stays terminal: one that was set up to finish after it failed does so, and only
then takes its route away with what is mapped to it. -/
theorem failed_job_finishes : ∃ s₀ : Store ℚ, new? 2 false = .ok s₀ ∧
    ∃ s, s = s₀.history
      (scriptedDeletion [.failed, .finished] ++ [.ask (.deleteRoute "route-2")]) ∧
    ((getJob "job-3").run s).1 = .ok ⟨"job-3", .failed, none⟩ ∧
    ((getJob "job-3").run (s.history [.ask (.getJob "job-3")])).1 =
      .ok ⟨"job-3", .finished, none⟩ ∧
    (s.history [.ask (.getJob "job-3")]).associations = [("app-9", "route-2")] ∧
    (s.history [.ask (.getJob "job-3"), .ask (.getJob "job-3")]).associations = [] ∧
    (s.history [.ask (.getJob "job-3")]).routes.contains "route-2" = true ∧
    (s.history [.ask (.getJob "job-3"), .ask (.getJob "job-3")]).routes.contains "route-2" =
      false ∧
    ¬ s.StaysTerminal "job-3" := by
  refine ⟨_, rfl, _, rfl, ?first, ?second, by decide +kernel, by decide +kernel,
    by decide +kernel, by decide +kernel, fun h => ?_⟩
  case first => with_unfolding_all rfl
  case second => with_unfolding_all rfl
  · have hsecond := (h [] [] (unscripted_looks _ _ 1) ⟨"job-3", .failed, none⟩
      (by with_unfolding_all rfl) rfl).1
    cases hsecond

end Store

end PlatformRoutes
