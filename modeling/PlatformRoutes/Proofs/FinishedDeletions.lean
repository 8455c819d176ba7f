import PlatformRoutes.Proofs.LooseListings
import PlatformRoutes.Proofs.OrphanEvidence
import PlatformRoutes.Proofs.StatusReading

namespace PlatformRoutes.Http

variable {τ α β : Type}

/-- What came back held a status that spells the word in some letter case. -/
def Exchange.Carries (e : Exchange τ) (word : String) : Prop :=
  ∃ v envelope s, e.answer.payload = .ok v ∧ (Envelope.open v : Parsed τ Envelope) = .ok envelope ∧
    envelope.entity.get? "status" = some (.text s) ∧ Text.lower s = word

/-- What came back was read as a job. -/
def Exchange.Names (e : Exchange τ) (job : Job) : Prop :=
  e.answer.payload >>= parseJob = .ok job

namespace Exchange

variable {e : Exchange τ} {job : Job}

theorem Names.status (h : e.Names job) : ∃ v envelope, e.answer.payload = .ok v ∧
    (Envelope.open v : Parsed τ Envelope) = .ok envelope ∧ envelope.status = job.status := by
  obtain ⟨v, hpayload, hparse⟩ := Parsed.bind_eq_ok h
  obtain ⟨envelope, hopen, hjob⟩ := Parsed.bind_eq_ok hparse
  obtain ⟨details, -, hjob⟩ := Parsed.bind_eq_ok hjob
  refine ⟨v, envelope, hpayload, hopen, ?_⟩
  split at hjob
  · cases hjob
  · cases hjob
    rfl

theorem Names.carries_finished (h : e.Names job) (hstatus : job.status = .finished) :
    e.Carries "finished" := by
  obtain ⟨v, envelope, hpayload, hopen, hsame⟩ := h.status
  obtain ⟨s, htext, hlower⟩ := Envelope.finished_of_status (hsame.trans hstatus)
  exact ⟨v, envelope, s, hpayload, hopen, htext, hlower⟩

theorem Names.not_carries_failed (h : e.Names job) (hstatus : job.status ≠ .failed) :
    ¬ e.Carries "failed" := by
  rintro ⟨v, envelope, s, hpayload, hopen, htext, hlower⟩
  obtain ⟨v', envelope', hpayload', hopen', hsame⟩ := h.status
  rw [hpayload] at hpayload'
  cases hpayload'
  rw [hopen] at hopen'
  cases hopen'
  exact hstatus (hsame.symm.trans (Envelope.status_of_text htext hlower))

end Exchange

namespace Client

variable {c : Client τ} {jobId routeId : String} {es before later : List (Exchange τ)}
  {evs evs' : List Event}

/-- Looks at a job up to the one that shows it finished, none of which shows it failed. -/
inductive Waited (c : Client τ) (jobId : String) : List (Exchange τ) → Prop
  | last {e : Exchange τ} : c.Requests "GET" ("/v2/jobs/" ++ jobId) none e.request →
      e.Carries "finished" → Waited c jobId [e]
  | more {e : Exchange τ} {es : List (Exchange τ)} :
      c.Requests "GET" ("/v2/jobs/" ++ jobId) none e.request → ¬ e.Carries "failed" →
      Waited c jobId es → Waited c jobId (e :: es)

/-- A request for the deletion of a route was answered with a job that was finished already, or that
looks at it right after showed to finish. -/
def Finished (c : Client τ) (routeId : String) (es : List (Exchange τ)) : Prop :=
  ∃ before e later job, es = before ++ e :: later ∧ c.AsksDeletion routeId e.request ∧ e.Names job ∧
    (e.Carries "finished" ∨
      ¬ e.Carries "failed" ∧ ∃ looks rest, later = looks ++ rest ∧ c.Waited job.id looks)

/-- A request is for the same whenever it is sent. -/
theorem Waited.of_conversed (h : (c.conversed before).Waited jobId es) : c.Waited jobId es := by
  induction h with
  | last hasks hfinished => exact .last hasks hfinished
  | more hasks hfailed _ ih => exact .more hasks hfailed ih

theorem Finished.append (h : c.Finished routeId es) (later : List (Exchange τ)) :
    c.Finished routeId (es ++ later) := by
  obtain ⟨before, e, rest, job, rfl, hasks, hjob, hdone⟩ := h
  refine ⟨before, e, rest ++ later, job, by simp, hasks, hjob, ?_⟩
  rcases hdone with hdone | ⟨hfailed, looks, others, rfl, hwaited⟩
  · exact .inl hdone
  · exact .inr ⟨hfailed, looks, others ++ later, by simp, hwaited⟩

theorem Finished.after (h : (c.conversed before).Finished routeId es) :
    c.Finished routeId (before ++ es) := by
  obtain ⟨front, e, rest, job, rfl, hasks, hjob, hdone⟩ := h
  refine ⟨before ++ front, e, rest, job, by simp, hasks, hjob, ?_⟩
  rcases hdone with hdone | ⟨hfailed, looks, others, rfl, hwaited⟩
  · exact .inl hdone
  · exact .inr ⟨hfailed, looks, others, rfl, hwaited.of_conversed⟩

namespace Finds

variable {x : Run (Client τ) τ α} {f : α → Run (Client τ) τ β}
  {told : Client τ → List (Exchange τ) → β → Prop}

/-- What exchanges nothing may come first. -/
theorem after (hx : Finds x fun _ es _ => es = []) (hf : ∀ a, Finds (f a) told) :
    Finds (x >>= f) told := by
  apply (hx.bind (Q := fun _ => told) hf).imp
  rintro c _ b ⟨a, _, later, rfl, rfl, htold⟩
  rwa [conversed_nil] at htold

theorem emit (event : Event) : Finds (Run.emit (σ := Client τ) (τ := τ) event) fun _ es _ => es = [] :=
  Converses.quiet (fun _ => rfl) fun _ _ _ => rfl

theorem of_puts {act : Act (Client τ) τ α} {asks : Client τ → Request → Prop}
    {read : Json → Parsed τ α} (h : Puts act asks read) :
    Finds (Run.onPlatform act) fun c es a =>
      ∃ e, es = [e] ∧ asks c e.request ∧ e.answer.payload >>= read = .ok a := by
  apply (Converses.of_puts h).imp
  rintro c es outcome (⟨-, f, rfl⟩ | ⟨e, rfl, hasks, hread⟩) a ha
  · cases ha
  · exact ⟨e, rfl, hasks, hread.symm.trans ha⟩

/-- What an operation finds after others is found after what those have exchanged. -/
theorem behind {talks : Client τ → List (Exchange τ) → Except (Failure τ) α → Prop}
    (hx : Converses x talks)
    (hafter : ∀ c before es b, told (Client.conversed c before) es b → told c (before ++ es) b)
    (hf : ∀ a, Finds (f a) told) : Finds (x >>= f) told := by
  have hany : Finds x fun _ _ _ => True := hx.imp fun _ _ _ _ _ _ => trivial
  apply (hany.bind (Q := fun _ => told) hf).imp
  rintro c _ b ⟨a, before, later, rfl, -, htold⟩
  exact hafter c before later b htold

theorem attempt {told : Client τ → List (Exchange τ) → α → Prop} (h : Finds x told) :
    Finds (PlatformRoutes.attempt x) fun c es tried => ∀ a, tried = .ok a → told c es a := by
  apply (Converses.attempt h).imp
  rintro c es outcome ⟨tried, htold, rfl⟩ _ ⟨⟩
  exact htold

end Finds

section Waits

variable [Add τ]

theorem getJob_finds (jobId : String) :
    Finds (Run.getJob (σ := Client τ) jobId) fun c es job => ∃ e, es = [e] ∧
      c.Requests "GET" ("/v2/jobs/" ++ jobId) none e.request ∧ e.Names job :=
  Finds.after (x := modify _) (Converses.quiet (fun _ => rfl) fun _ _ _ => rfl) fun _ =>
    Finds.of_puts (getJob_puts jobId)

theorem sleep_finds (duration : τ) :
    Finds (Run.sleep (σ := Client τ) duration) fun _ es _ => es = [] :=
  Converses.quiet (show Preserves id (Run.sleep duration) from preserves_sleep duration)
    fun _ _ _ => rfl

variable [Sub τ] [OfNat τ 0] [LE τ] [LT τ] [DecidableLE τ] [DecidableLT τ]

/-- A wait ends well only at a look that shows the job finished, and no look before it shows it
failed. -/
theorem poll_finds (jobId : String) (interval limit deadline : τ) (fuel attempts : Nat) :
    Finds (Poller.poll (σ := Client τ) jobId interval limit deadline fuel attempts)
      fun c es _ => c.Waited jobId es := by
  induction fuel generalizing attempts with
  | zero => exact Finds.throw .stalled
  | succ fuel ih =>
    rw [Poller.poll, Poller.pollBy]
    apply ((getJob_finds jobId).bind (Q := fun job c es _ =>
      job.status = .finished ∧ es = [] ∨ job.status ≠ .failed ∧ c.Waited jobId es) ?_).imp
    · rintro c _ last ⟨job, _, later, rfl, ⟨e, rfl, hasks, hnames⟩, hlater⟩
      rcases hlater with ⟨hfinished, rfl⟩ | ⟨hfailed, hwaited⟩
      · exact .last hasks (hnames.carries_finished hfinished)
      · exact .more hasks (hnames.not_carries_failed hfailed) hwaited.of_conversed
    · intro job
      apply Finds.after (Finds.emit _)
      intro _
      cases job.status with
      | finished =>
        apply Finds.after (Finds.emit _)
        intro _
        exact Finds.pure fun c => .inl ⟨rfl, rfl⟩
      | failed => exact Finds.after (Finds.emit _) fun _ => Finds.throw _
      | queued | running =>
        apply Converses.get_bind
        intro w
        dsimp only
        split
        · exact Finds.after (Finds.emit _) fun _ => Finds.throw _
        · apply Finds.after (sleep_finds _)
          intro _
          exact (ih (attempts + 1)).imp fun c es last hwaited => .inr ⟨by decide, hwaited⟩

theorem awaitJob_finds (p : Poller τ) (job : Job) :
    Finds (p.awaitJob (σ := Client τ) job) fun c es _ =>
      job.status = .finished ∨ job.status ≠ .failed ∧ c.Waited job.id es := by
  unfold Poller.awaitJob
  cases job.status with
  | finished => exact Finds.pure fun c => .inl rfl
  | failed => exact Finds.throw _
  | queued | running =>
    apply Converses.get_bind
    intro w
    exact (poll_finds _ _ _ _ _ _).imp fun c es last hwaited => .inr ⟨by decide, hwaited⟩

variable (o : Orchestrator τ)

/-- The deletion of a route and the wait for it. -/
def deletion (r : Route) : Run (Client τ) τ Unit := do
  let _ ← o.poller.awaitJob (← Run.deleteRoute r.id)

theorem deletion_finds (r : Route) : Finds (deletion o r) fun c es _ => c.Finished r.id es := by
  have hwait (job : Job) := (awaitJob_finds o.poller job).bind fun _ =>
    Finds.pure_exact (τ := τ) ()
  apply ((Finds.of_puts (deleteRoute_puts r.id)).bind hwait).imp
  rintro c _ _ ⟨job, _, _, rfl, ⟨e, rfl, hasks, hnames⟩, _, looks, _, rfl, hwaited, rfl, -⟩
  have hnames : e.Names job := hnames
  refine ⟨[], e, looks ++ [], job, rfl, hasks, hnames, ?_⟩
  rcases hwaited with hfinished | ⟨hfailed, hwaited⟩
  · exact .inl (hnames.carries_finished hfinished)
  · exact .inr ⟨hnames.not_carries_failed hfailed, looks, [], rfl, hwaited.of_conversed⟩

theorem deleteRoute_eq (r : Route) : o.deleteRoute (σ := Client τ) r =
    deletion o r >>= fun _ => Run.emit (.onRoute "route.deleted" r) := by
  simp only [Orchestrator.deleteRoute, deletion, bind_assoc, pure_bind]

theorem deleteRoute_finds (r : Route) :
    Finds (o.deleteRoute (σ := Client τ) r) fun c es _ => c.Finished r.id es := by
  rw [deleteRoute_eq]
  apply ((deletion_finds o r).bind fun _ => Finds.emit _).imp
  rintro c _ _ ⟨_, es, _, rfl, hfinished, rfl⟩
  exact hfinished.append []

/-- A route is only said to be deleted if it is. -/
theorem deleteUnused_finds (r : Route) :
    Finds (o.deleteUnused (σ := Client τ) r) fun c es deleted =>
      deleted = true → c.Finished r.id es := by
  apply Finds.behind (listFirst_converses r.id)
  · intro c before es deleted h hdeleted
    exact (h hdeleted).after
  · intro found
    cases found with
    | some app =>
      apply Finds.after (Finds.emit _)
      intro _
      exact Finds.pure fun c hfalse => absurd hfalse Bool.false_ne_true
    | none =>
      apply ((deleteRoute_finds o r).bind fun _ => Finds.pure_exact true).imp
      rintro c _ deleted ⟨_, es, _, rfl, hfinished, rfl, -⟩ -
      exact hfinished.append []

/-- What is added to the routes deleted so far is deleted. -/
theorem sweepRoute_finds (sofar : Orchestrator.Sweep τ) (r : Route) :
    Finds (o.sweepRoute (σ := Client τ) sofar r) fun c es next =>
      ∀ id ∈ next.deleted, id ∈ sofar.deleted ∨ c.Finished id es := by
  unfold Orchestrator.sweepRoute
  split
  · apply ((deleteUnused_finds o r).attempt.bind (Q := fun tried _ es next => es = [] ∧
      ∀ id ∈ next.deleted, id ∈ sofar.deleted ∨ id = r.id ∧ tried = .ok true) ?_).imp
    · rintro c _ next ⟨tried, es, _, rfl, htried, rfl, hnext⟩ id hid
      rcases hnext id hid with hold | ⟨rfl, hnew⟩
      · exact .inl hold
      · exact .inr ((htried true hnew rfl).append [])
    · intro tried
      split
      · apply Finds.pure
        intro c
        refine ⟨rfl, ?_⟩
        intro id hid
        rcases List.mem_append.mp hid with hold | hnew
        · exact .inl hold
        · exact .inr ⟨List.mem_singleton.mp hnew, rfl⟩
      · exact Finds.pure fun c => ⟨rfl, fun id hid => .inl hid⟩
      · split
        · exact Finds.pure fun c => ⟨rfl, fun id hid => .inl hid⟩
        · exact Finds.throw _
  · apply Finds.after (Finds.emit _)
    intro _
    exact Finds.pure fun c id hid => .inl hid

theorem sweep_finds (sofar : Orchestrator.Sweep τ) (routes : List Route) :
    Finds (routes.foldlM (o.sweepRoute (σ := Client τ)) sofar) fun c es swept =>
      ∀ id ∈ swept.deleted, id ∈ sofar.deleted ∨ c.Finished id es := by
  induction routes generalizing sofar with
  | nil => exact Finds.pure fun c id hid => .inl hid
  | cons r routes ih =>
    rw [List.foldlM_cons]
    apply ((sweepRoute_finds o sofar r).bind ih).imp
    rintro c _ swept ⟨next, before, later, rfl, hnext, hlater⟩ id hid
    rcases hlater id hid with hold | hnew
    · exact (hnext id hold).imp_right fun h => h.append later
    · exact .inr hnew.after

theorem deleteOrphanedRoutes_finds :
    Finds (o.deleteOrphanedRoutes (σ := Client τ)) fun c es ids => ∀ id ∈ ids, c.Finished id es := by
  have hafter (c : Client τ) (before es : List (Exchange τ)) (ids : List String)
      (h : ∀ id ∈ ids, (c.conversed before).Finished id es) :
      ∀ id ∈ ids, c.Finished id (before ++ es) := fun id hid => (h id hid).after
  apply Finds.behind (requireSpace_converses o) hafter
  intro spaceId
  apply Finds.behind (listAll_converses .spaceRoutes [(.spaceId, spaceId)]) hafter
  intro routes
  apply ((sweep_finds o ⟨[], []⟩ routes).bind (Q := fun swept _ es ids =>
    es = [] ∧ ids = swept.deleted) ?_).imp
  · rintro c _ _ ⟨swept, es, _, rfl, hswept, rfl, rfl⟩ id hid
    rcases hswept id hid with hnone | hfinished
    · cases hnone
    · exact hfinished.append []
  · intro swept
    split
    · exact Finds.pure_exact _
    · exact Finds.throw _

end Waits

section Events

variable {x : Run (Client τ) τ α} {f : α → Run (Client τ) τ β}
  {tells told : Client τ → List (Exchange τ) → List Event → Except (Failure τ) α → Prop}
  {Q : α → Client τ → List (Exchange τ) → List Event → Except (Failure τ) β → Prop}

/-- An operation only adds to what is told, and what it tells has to do with the client's state before
it, with the exchanges and with the outcome. -/
def Reports (x : Run (Client τ) τ α)
    (tells : Client τ → List (Exchange τ) → List Event → Except (Failure τ) α → Prop) : Prop :=
  ∀ w : World (Client τ) τ, ∃ es evs,
    (x.run w).2.platform = w.platform.conversed es ∧ w.platform.Answered es ∧
      (x.run w).2.events = w.events ++ evs ∧ tells w.platform es evs (x.run w).1

namespace Reports

theorem imp (h : Reports x tells)
    (himp : ∀ c es evs outcome, tells c es evs outcome → told c es evs outcome) : Reports x told := by
  intro w
  obtain ⟨es, evs, hafter, hanswered, hevents, htells⟩ := h w
  exact ⟨es, evs, hafter, hanswered, hevents, himp _ _ _ _ htells⟩

/-- What is known of the exchanges is known of the transcript. -/
theorem on_transcript (h : Reports x tells) (w : World (Client τ) τ) :
    let ended := x.run w
    let talk := transcript w.platform ended.2.platform
    ended.2.platform = w.platform.conversed talk ∧
      ∃ evs, ended.2.events = w.events ++ evs ∧ tells w.platform talk evs ended.1 := by
  intro ended talk
  obtain ⟨es, evs, hafter, hanswered, hevents, htells⟩ := h w
  have htalk : talk = es := by
    change transcript w.platform ended.2.platform = es
    rw [show ended.2.platform = w.platform.conversed es from hafter]
    exact transcript_conversed hanswered
  rw [htalk]
  exact ⟨hafter, evs, hevents, htells⟩

/-- What exchanges something and tells nothing. -/
theorem silent {talks : Client τ → List (Exchange τ) → Except (Failure τ) α → Prop}
    (h : Converses x talks) (hevents : ∀ w : World (Client τ) τ, (x.run w).2.events = w.events) :
    Reports x fun c es evs outcome => evs = [] ∧ talks c es outcome := by
  intro w
  obtain ⟨es, hafter, hanswered, htalks⟩ := h w
  exact ⟨es, [], hafter, hanswered, by rw [hevents, List.append_nil], rfl, htalks⟩

/-- What is known of the exchanges is known beside what is told. -/
theorem and {talks : Client τ → List (Exchange τ) → Except (Failure τ) α → Prop}
    (h : Reports x tells) (h' : Converses x talks) :
    Reports x fun c es evs outcome => tells c es evs outcome ∧ talks c es outcome := by
  intro w
  obtain ⟨es, evs, hafter, hanswered, hevents, htells⟩ := h w
  obtain ⟨es', hafter', hanswered', htalks⟩ := h' w
  have hsame : es = es' := by
    rw [← transcript_conversed hanswered, ← transcript_conversed hanswered', ← hafter, hafter']
  subst hsame
  exact ⟨es, evs, hafter, hanswered, hevents, htells, htalks⟩

/-- What is known of every result is known beside what is told. -/
theorem and_ok {good : α → Prop} (h : Reports x tells)
    (hgood : ∀ w a v, x.run w = (.ok a, v) → good a) :
    Reports x fun c es evs outcome => tells c es evs outcome ∧ ∀ a, outcome = .ok a → good a := by
  intro w
  obtain ⟨es, evs, hafter, hanswered, hevents, htells⟩ := h w
  exact ⟨es, evs, hafter, hanswered, hevents, htells, fun a ha => hgood w a _ (Prod.ext ha rfl)⟩

theorem emit (event : Event) :
    Reports (Run.emit (σ := Client τ) event) fun _ _ evs _ => evs = [event] := by
  intro w
  refine ⟨[], [event], (conversed_nil _).symm, ?_, rfl, rfl⟩
  intro number e he
  cases he

/-- Of two operations in turn, the exchanges and the events of the first come first, unless it
fails. -/
theorem bind (hx : Reports x tells) (hf : ∀ a, Reports (f a) (Q a)) :
    Reports (x >>= f) fun c es evs outcome =>
      (∃ e, tells c es evs (.error e) ∧ outcome = .error e) ∨
        ∃ a es₁ es₂ evs₁ evs₂, es = es₁ ++ es₂ ∧ evs = evs₁ ++ evs₂ ∧ tells c es₁ evs₁ (.ok a) ∧
          Q a (c.conversed es₁) es₂ evs₂ outcome := by
  intro w
  obtain ⟨es₁, evs₁, hafter, hanswered, hevents, htells⟩ := hx w
  cases hr : x.run w with
  | mk outcome v =>
    rw [hr] at hafter hevents htells
    cases outcome with
    | error e =>
      rw [run_bind_error hr]
      exact ⟨es₁, evs₁, hafter, hanswered, hevents, .inl ⟨e, htells, rfl⟩⟩
    | ok a =>
      obtain ⟨es₂, evs₂, hafter', hanswered', hevents', hnext⟩ := hf a v
      rw [run_bind_ok hr]
      dsimp only at hafter hevents
      rw [hafter] at hafter' hanswered' hnext
      refine ⟨es₁ ++ es₂, evs₁ ++ evs₂, ?_, hanswered.append hanswered', ?_,
        .inr ⟨a, es₁, es₂, evs₁, evs₂, rfl, rfl, htells, hnext⟩⟩
      · rw [hafter', conversed_append]
      · rw [hevents', hevents, List.append_assoc]

theorem attempt (h : Reports x tells) :
    Reports (attempt x) fun c es evs _ => ∃ tried, tells c es evs tried := by
  intro w
  obtain ⟨es, evs, hafter, hanswered, hevents, htells⟩ := h w
  exact ⟨es, evs, hafter, hanswered, hevents, _, htells⟩

end Reports

/-- Whatever route is told to be deleted is. -/
def Attested (c : Client τ) (es : List (Exchange τ)) (evs : List Event) : Prop :=
  ∀ event ∈ evs, event.name = "route.deleted" →
    ∃ r, event = .onRoute "route.deleted" r ∧ c.Finished r.id es

theorem attested_nil (c : Client τ) (es : List (Exchange τ)) : c.Attested es [] := by
  intro event hevent
  cases hevent

theorem Attested.append (h : c.Attested es evs) (h' : (c.conversed es).Attested later evs') :
    c.Attested (es ++ later) (evs ++ evs') := by
  intro event hevent hname
  rcases List.mem_append.mp hevent with hevent | hevent
  · obtain ⟨r, hr, hfinished⟩ := h event hevent hname
    exact ⟨r, hr, hfinished.append later⟩
  · obtain ⟨r, hr, hfinished⟩ := h' event hevent hname
    exact ⟨r, hr, hfinished.after⟩

/-- An operation that tells of no deletion wrongly. -/
def Attests (x : Run (Client τ) τ α) : Prop := Reports x fun c es evs _ => c.Attested es evs

theorem Attests.silent {talks : Client τ → List (Exchange τ) → Except (Failure τ) α → Prop}
    (h : Converses x talks) (hevents : ∀ w : World (Client τ) τ, (x.run w).2.events = w.events) :
    Attests x := by
  apply (Reports.silent h hevents).imp
  rintro c es evs outcome ⟨rfl, -⟩
  exact attested_nil c es

theorem attests_composed : Composed (Attests (τ := τ)) where
  pure a := Attests.silent (onlyGets_composed.pure a) fun _ => rfl
  throw f := Attests.silent (onlyGets_composed.throw f) fun _ => rfl
  bind hx hf := by
    apply (Reports.bind hx hf).imp
    rintro c es evs outcome (⟨_, h, -⟩ | ⟨_, es₁, es₂, evs₁, evs₂, rfl, rfl, h, h'⟩)
    · exact h
    · exact h.append h'
  attempt hx := hx.attempt.imp fun _ _ _ _ ⟨_, h⟩ => h
  surroundings _ h := fun w => h w w

theorem attests_puts {act : Act (Client τ) τ α} {asks : Client τ → Request → Prop}
    {read : Json → Parsed τ α} (h : Puts act asks read) : Attests (Run.onPlatform act) :=
  Attests.silent (Converses.of_puts h) fun _ => rfl

theorem attests_emit {event : Event} (h : event.name ≠ "route.deleted") :
    Attests (Run.emit (σ := Client τ) (τ := τ) event) := by
  apply (Reports.emit event).imp
  rintro c es evs outcome rfl told htold hname
  rw [List.mem_singleton.mp htold] at hname
  exact absurd hname h

/-- A wait tells of its looks, and of no deletion. -/
theorem attests_ofWait {event : Event} (h : event.OfWait) :
    Attests (Run.emit (σ := Client τ) (τ := τ) event) := by
  apply attests_emit
  cases h with
  | poll => simp [Event.jobPoll]
  | finished => simp [Event.jobFinished]
  | failed => simp [Event.jobFailed]
  | timeout => simp [Event.jobTimeout]

theorem attests_page (resource : Resource) (filters : Filters) (number : Int) :
    Attests (Run.listResources (σ := Client τ) resource filters number) :=
  attests_puts (listResources_puts resource filters number)

theorem attests_lookups : Lookups (Attests (τ := τ)) := attests_composed.lookups attests_page

variable [Add τ]

theorem attests_getJob (jobId : String) : Attests (Run.getJob (σ := Client τ) jobId) :=
  Attests.silent (getJob_finds jobId) fun _ => rfl

theorem attests_sleep (duration : τ) : Attests (Run.sleep (σ := Client τ) duration) :=
  Attests.silent (sleep_finds duration) (events_sleep duration)

variable [Sub τ] [OfNat τ 0] [LE τ] [LT τ] [DecidableLE τ] [DecidableLT τ] (o : Orchestrator τ)

theorem attests_awaitJob (p : Poller τ) (job : Job) :
    Attests (p.awaitJob (σ := Client τ) job) :=
  attests_composed.awaitJob (fun _ => attests_ofWait) attests_sleep p (attests_getJob job.id)

/-- A deletion is told of at its end, and only if it was finished. -/
theorem deleteRoute_reports (r : Route) :
    Reports (o.deleteRoute (σ := Client τ) r) fun c es evs outcome => c.Attested es evs ∧
      (outcome = .ok () → c.Finished r.id es ∧
        ∃ earlier, evs = earlier ++ [.onRoute "route.deleted" r]) := by
  have hbefore : Attests (deletion o r) :=
    attests_composed.bind (attests_puts (deleteRoute_puts r.id)) fun job =>
      attests_composed.bind (attests_awaitJob o.poller job) fun _ => attests_composed.pure ()
  rw [deleteRoute_eq]
  apply ((hbefore.and (deletion_finds o r)).bind fun _ => Reports.emit _).imp
  rintro c es evs outcome
    (⟨e, ⟨hattested, -⟩, rfl⟩ | ⟨_, es, later, evs, _, rfl, rfl, ⟨hattested, hfinished⟩, rfl⟩)
  · refine ⟨hattested, ?_⟩
    intro hok
    cases hok
  · have hdone := (hfinished () rfl).append later
    refine ⟨?_, fun _ => ⟨hdone, evs, rfl⟩⟩
    intro event hevent hname
    rcases List.mem_append.mp hevent with hevent | hevent
    · obtain ⟨q, hq, hq'⟩ := hattested event hevent hname
      exact ⟨q, hq, hq'.append later⟩
    · exact ⟨r, List.mem_singleton.mp hevent, hdone⟩

theorem attests_deleteRoute (r : Route) : Attests (o.deleteRoute (σ := Client τ) r) :=
  (deleteRoute_reports o r).imp fun _ _ _ _ h => h.1

theorem attests_deleteUnused (r : Route) : Attests (o.deleteUnused (σ := Client τ) r) := by
  apply attests_composed.bind (attests_composed.listFirst attests_page _ _)
  intro found
  cases found with
  | some app =>
    exact attests_composed.bind (attests_emit (by simp [Event.onRoute])) fun _ =>
      attests_composed.pure false
  | none =>
    exact attests_composed.bind (attests_deleteRoute o r) fun _ => attests_composed.pure true

theorem attests_sweepRoute (sofar : Orchestrator.Sweep τ) (r : Route) :
    Attests (o.sweepRoute (σ := Client τ) sofar r) := by
  unfold Orchestrator.sweepRoute
  split
  · apply attests_composed.bind (attests_composed.attempt (attests_deleteUnused o r))
    intro tried
    split
    · exact attests_composed.pure _
    · exact attests_composed.pure _
    · split
      · exact attests_composed.pure _
      · exact attests_composed.throw _
  · exact attests_composed.bind (attests_emit (by simp [Event.onRoute])) fun _ =>
      attests_composed.pure sofar

theorem attests_deleteOrphanedRoutes : Attests (o.deleteOrphanedRoutes (σ := Client τ)) := by
  apply attests_composed.bind (attests_composed.requireSpace o)
  intro spaceId
  apply attests_composed.bind (attests_composed.listAll attests_page _ _)
  intro routes
  apply attests_composed.bind (attests_composed.foldlM (attests_sweepRoute o) routes _)
  intro swept
  split
  · exact attests_composed.pure _
  · exact attests_composed.throw _

/-- The route that is deleted has the host and the path that were asked for. -/
theorem delete_reports (domain : String) (host path : Option String) :
    Reports (o.delete (σ := Client τ) domain host path) fun c es evs outcome => c.Attested es evs ∧
      (outcome = .ok () → ∃ r earlier, Route.fits r host path = true ∧
        evs = earlier ++ [.onRoute "route.deleted" r] ∧ c.Finished r.id es) := by
  have hroute (resolved : Domain) :
      Reports (Run.resolveRoute (σ := Client τ) resolved host path) fun c es evs outcome =>
        c.Attested es evs ∧ ∀ r, outcome = .ok r → Route.fits r host path = true := by
    apply Reports.and_ok (attests_lookups.resolveRoute resolved host path)
    intro w r v hfound
    have hmeets := findRoute_meets (resolveRoute_ok hfound)
    simp [Route.fits, hmeets.host_eq, hmeets.path_eq]
  have hrest (resolved : Domain) := (hroute resolved).bind fun r => deleteRoute_reports o r
  apply ((attests_lookups.resolveDomain o.organizationId domain).bind hrest).imp
  rintro c es evs outcome (⟨e, hdomain, rfl⟩ | ⟨resolved, es, later, evs, evs', rfl, rfl, hdomain, hlater⟩)
  · refine ⟨hdomain, ?_⟩
    intro hok
    cases hok
  · rcases hlater with ⟨e, ⟨hlookup, -⟩, rfl⟩ |
      ⟨r, es₁, es₂, evs₁, evs₂, rfl, rfl, ⟨hlookup, hfits⟩, hattested, hdone⟩
    · refine ⟨hdomain.append hlookup, ?_⟩
      intro hok
      cases hok
    · refine ⟨hdomain.append (hlookup.append hattested), ?_⟩
      intro hok
      obtain ⟨hfinished, earlier, rfl⟩ := hdone hok
      exact ⟨r, evs ++ (evs₁ ++ earlier), hfits r rfl, by simp, hfinished.after.after⟩

/-- No deletion is reported falsely. Whenever `delete` comes back, and whenever a sweep names a route
as deleted or either tells of a deletion, the route's deletion was asked for, and the answer or one of
the looks at its job that came right after showed it finished, with none before it that showed it
failed. -/
theorem deletions_finished (w : World (Client τ) τ) :
    (∀ domain host path,
      let ended := (o.delete domain host path).run w
      let talk := transcript w.platform ended.2.platform
      ended.2.platform = w.platform.conversed talk ∧
        ∃ evs, ended.2.events = w.events ++ evs ∧ w.platform.Attested talk evs ∧
          (ended.1 = .ok () → ∃ r earlier, Route.fits r host path = true ∧
            evs = earlier ++ [.onRoute "route.deleted" r] ∧ w.platform.Finished r.id talk)) ∧
    (let ended := o.deleteOrphanedRoutes.run w
      let talk := transcript w.platform ended.2.platform
      ended.2.platform = w.platform.conversed talk ∧
        ∃ evs, ended.2.events = w.events ++ evs ∧ w.platform.Attested talk evs ∧
          ∀ ids, ended.1 = .ok ids → ∀ id ∈ ids, w.platform.Finished id talk) := by
  refine ⟨?_, ?_⟩
  · intro domain host path ended talk
    obtain ⟨hafter, evs, hevents, hattested, hdone⟩ :=
      (delete_reports o domain host path).on_transcript w
    exact ⟨hafter, evs, hevents, hattested, hdone⟩
  · intro ended talk
    obtain ⟨hafter, evs, hevents, hattested, hdone⟩ :=
      (Reports.and (attests_deleteOrphanedRoutes o) (deleteOrphanedRoutes_finds o)).on_transcript w
    exact ⟨hafter, evs, hevents, hattested, hdone⟩

/-- A world whose server takes two looks to finish the deletion of its only route, and is unclear about
the job at the first. -/
def lingering : World (Client ℚ) ℚ :=
  let job (status : String) := Answer.response 200 ("\x7b\"metadata\":\x7b\"guid\":\"job-1\"\x7d," ++
    "\"entity\":\x7b\"status\":" ++ status ++ "\x7d\x7d")
  let w := emptying 200 ""
  { w with platform := { w.platform with
      answers := w.platform.answers.take 2 ++ [job "\"queued\"", job "null", job "\"Finished\""] } }

theorem deletions_finished_lingering :
    (emptied.deleteOrphanedRoutes.run lingering).1.toOption = some ["route-1"] ∧
      lingering.platform.Finished "route-1" (sweepTalk emptied lingering) := by
  have hids : (emptied.deleteOrphanedRoutes.run lingering).1.toOption = some ["route-1"] := by
    decide +kernel
  refine ⟨hids, ?_⟩
  obtain ⟨-, -, evs, -, -, hfinished⟩ := deletions_finished emptied lingering
  cases hrun : (emptied.deleteOrphanedRoutes.run lingering).1 with
  | error f => rw [hrun] at hids; cases hids
  | ok ids =>
    rw [hrun] at hids
    cases hids
    exact hfinished _ hrun "route-1" (List.mem_singleton_self _)

end Events

end Client

end PlatformRoutes.Http
