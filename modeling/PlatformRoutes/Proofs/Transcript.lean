import PlatformRoutes.Proofs.ErrorAnswers
import PlatformRoutes.Proofs.Untouched

namespace PlatformRoutes.Http

variable {τ α β : Type}

/-- A request that was sent, with what came back for it. -/
structure Exchange (τ : Type) where
  request : Request
  answer : Answer τ

/-- What comes back for a request holds something only if it is an answer. -/
def Answer.payload : Answer τ → Parsed τ Json
  | .response status body => Client.payload status body
  | .failure f => .error f

namespace Client

variable {c : Client τ} {before later exchanges : List (Exchange τ)}

/-- What comes back for a request if so many others are sent before it. -/
def answerAt (c : Client τ) (number : Nat) : Answer τ := c.answers.getD number (.failure c.silence)

/-- The exchanges that lead from one state of a client to a later one. Requests are answered in the
order in which they are sent. -/
def transcript (c d : Client τ) : List (Exchange τ) :=
  (d.sent.drop c.sent.length).mapIdx fun number request => ⟨request, c.answerAt number⟩

/-- The client after some exchanges. -/
def conversed (c : Client τ) (exchanges : List (Exchange τ)) : Client τ :=
  { c with
    answers := c.answers.drop exchanges.length
    sent := c.sent ++ exchanges.map Exchange.request }

/-- To every request came back what was due to it. -/
def Answered (c : Client τ) (exchanges : List (Exchange τ)) : Prop :=
  ∀ number e, exchanges[number]? = some e → e.answer = c.answerAt number

theorem conversed_nil (c : Client τ) : c.conversed [] = c := by
  simp only [conversed, List.length_nil, List.drop_zero, List.map_nil, List.append_nil]

theorem conversed_append (c : Client τ) (before later : List (Exchange τ)) :
    (c.conversed before).conversed later = c.conversed (before ++ later) := by
  simp only [conversed, List.drop_drop, List.length_append, List.map_append, List.append_assoc]

theorem answerAt_conversed (c : Client τ) (before : List (Exchange τ)) (number : Nat) :
    (c.conversed before).answerAt number = c.answerAt (before.length + number) := by
  simp only [answerAt, conversed, List.getD_eq_getElem?_getD, List.getElem?_drop]

theorem Answered.append (h : c.Answered before) (h' : (c.conversed before).Answered later) :
    c.Answered (before ++ later) := by
  intro number e he
  by_cases hlt : number < before.length
  · rw [List.getElem?_append_left hlt] at he
    exact h number e he
  · rw [List.getElem?_append_right (Nat.le_of_not_lt hlt)] at he
    have hanswer := h' _ e he
    rwa [answerAt_conversed, Nat.add_sub_cancel' (Nat.le_of_not_lt hlt)] at hanswer

/-- The record of the requests and the answers that were to come tell all exchanges. -/
theorem transcript_conversed (h : c.Answered exchanges) :
    transcript c (c.conversed exchanges) = exchanges := by
  refine List.ext_getElem? fun number => ?_
  simp only [transcript, conversed, List.drop_left, List.getElem?_mapIdx, List.getElem?_map,
    Option.map_map]
  cases he : exchanges[number]? with
  | none => rfl
  | some e =>
    rw [Option.map_some, Function.comp_apply, ← h number e he]

/-- An answer that came back was one of those to come. -/
theorem Answered.mem_answers (h : c.Answered exchanges) {e : Exchange τ} (he : e ∈ exchanges)
    {status : Nat} {body : String} (hanswer : e.answer = .response status body) :
    .response status body ∈ c.answers := by
  obtain ⟨number, hnumber⟩ := List.mem_iff_getElem?.mp he
  have hdue := h number e hnumber
  rw [hanswer, answerAt, List.getD_eq_getElem?_getD] at hdue
  cases hnext : c.answers[number]? with
  | none =>
    rw [hnext] at hdue
    cases hdue
  | some answer =>
    rw [hnext, Option.getD_some] at hdue
    rw [hdue]
    exact List.mem_of_getElem? hnext

/-- A request without a body for a path below the client's address. -/
def Requests (c : Client τ) (method path : String) (params : Option (List (String × String)))
    (q : Request) : Prop :=
  ∃ url, c.base.append? path params = some url ∧ q = requestFor c method url none

/-- An action that puts one request and reads its outcome off the answer, unless it fails before. -/
def Puts (act : Act (Client τ) τ α) (asks : Client τ → Request → Prop) (read : Json → Parsed τ α) :
    Prop :=
  ∀ c : Client τ, (∃ f, act.run c = (.error f, c)) ∨
    ∃ q, asks c q ∧ act.run c =
      ((c.answerAt 0).payload >>= read, c.conversed [⟨q, c.answerAt 0⟩])

theorem run_send_any (q : Request) (c : Client τ) : ∃ outcome,
    (send q).run c = (outcome, c.conversed [⟨q, c.answerAt 0⟩]) ∧
      (c.answerAt 0).payload = outcome >>= fun answer => payload answer.1 answer.2 := by
  obtain ⟨base, pageSize, headers, closed, answers, silence, sent⟩ := c
  match answers with
  | [] => exact ⟨.error silence, rfl, rfl⟩
  | .response status body :: rest => exact ⟨.ok (status, body), rfl, rfl⟩
  | .failure f :: rest => exact ⟨.error f, rfl, rfl⟩

theorem request_puts (method path : String) (params : Option (List (String × String))) :
    Puts (τ := τ) (request method path params none) (fun c => c.Requests method path params) .ok := by
  intro c
  cases hurl : c.base.append? path params with
  | none => exact .inl ⟨_, run_request_unusable hurl⟩
  | some url =>
    by_cases hclosed : c.closed = true
    · exact .inl ⟨_, run_request_closed hurl hclosed⟩
    · refine .inr ⟨requestFor c method url none, ⟨url, hurl, rfl⟩, ?_⟩
      obtain ⟨outcome, hsend, hpayload⟩ := run_send_any (requestFor c method url none) c
      rw [request, run_bind_ok (x := get) rfl]
      dsimp only
      rw [hurl]
      dsimp only
      rw [if_neg hclosed, hpayload]
      cases outcome with
      | ok answer =>
        refine (run_bind_ok hsend).trans ?_
        rw [run_ofOutcome]
        change _ = (payload answer.1 answer.2 >>= .ok, _)
        cases payload (τ := τ) answer.1 answer.2 <;> rfl
      | error f => exact run_bind_error hsend

/-- What is read off the outcome is read off the answer. -/
theorem Puts.parsed {act : Act (Client τ) τ Json} {asks : Client τ → Request → Prop}
    (h : Puts act asks .ok) (parse : Json → Parsed τ α) :
    Puts (act >>= fun v => ofOutcome (parse v)) asks parse := by
  intro c
  rcases h c with ⟨f, hrun⟩ | ⟨q, hasks, hrun⟩
  · exact .inl ⟨f, run_bind_error hrun⟩
  · refine .inr ⟨q, hasks, ?_⟩
    cases hpayload : (c.answerAt 0).payload with
    | ok v =>
      rw [hpayload] at hrun
      exact run_bind_ok hrun
    | error f =>
      rw [hpayload] at hrun
      exact run_bind_error hrun

/-- A page of the listing under a path. -/
def AsksPage (c : Client τ) (resource : Resource) (filters : Filters) (number : Int)
    (q : Request) : Prop :=
  ∃ path, (listPath filters resource : Parsed τ String) = .ok path ∧
    c.Requests "GET" path (some (listParams resource filters number c.pageSize)) q

theorem listResources_puts (resource : Resource) (filters : Filters) (number : Int) :
    Puts (τ := τ) (listResources resource filters number)
      (fun c => c.AsksPage resource filters number) (parsePage resource number) := by
  intro c
  cases hpath : (listPath filters resource : Parsed τ String) with
  | error f =>
    refine .inl ⟨f, ?_⟩
    rw [listResources, hpath]
    exact run_bind_error rfl
  | ok path =>
    rw [listResources, hpath]
    have hparsed := (request_puts (τ := τ) "GET" path
      (some (listParams resource filters number c.pageSize))).parsed (parsePage resource number)
    rcases hparsed c with ⟨f, hrun⟩ | ⟨q, hasks, hrun⟩
    · exact .inl ⟨f, hrun⟩
    · exact .inr ⟨q, ⟨path, hpath, hasks⟩, hrun⟩

/-- The request for the deletion of a route. -/
def AsksDeletion (c : Client τ) (routeId : String) (q : Request) : Prop :=
  c.Requests "DELETE" ("/v2/routes/" ++ routeId) (some [("async", "true")]) q

theorem deleteRoute_puts (routeId : String) :
    Puts (τ := τ) (deleteRoute routeId) (fun c => c.AsksDeletion routeId) parseJob :=
  (request_puts _ _ _).parsed parseJob

theorem getJob_puts (jobId : String) :
    Puts (τ := τ) (getJob jobId) (fun c => c.Requests "GET" ("/v2/jobs/" ++ jobId) none) parseJob :=
  (request_puts _ _ _).parsed parseJob

/-- An operation does nothing to its client but exchange, and what is exchanged has to do with the
client's state before it and with the outcome. -/
def Converses (x : Run (Client τ) τ α)
    (tells : Client τ → List (Exchange τ) → Except (Failure τ) α → Prop) : Prop :=
  ∀ w : World (Client τ) τ, ∃ exchanges,
    (x.run w).2.platform = w.platform.conversed exchanges ∧ w.platform.Answered exchanges ∧
      tells w.platform exchanges (x.run w).1

namespace Converses

variable {x : Run (Client τ) τ α} {f : α → Run (Client τ) τ β}
  {tells told : Client τ → List (Exchange τ) → Except (Failure τ) α → Prop}
  {Q : α → Client τ → List (Exchange τ) → Except (Failure τ) β → Prop}

theorem imp (h : Converses x tells) (himp : ∀ c es outcome, tells c es outcome → told c es outcome) :
    Converses x told := by
  intro w
  obtain ⟨es, hafter, hanswered, htells⟩ := h w
  exact ⟨es, hafter, hanswered, himp _ _ _ htells⟩

/-- What does not touch the client exchanges nothing. -/
theorem quiet (h : ∀ w : World (Client τ) τ, (x.run w).2.platform = w.platform)
    (htells : ∀ w : World (Client τ) τ, tells w.platform [] (x.run w).1) : Converses x tells := by
  intro w
  refine ⟨[], (h w).trans (conversed_nil _).symm, ?_, htells w⟩
  intro number e he
  cases he

theorem pure {tells : Client τ → List (Exchange τ) → Except (Failure τ) α → Prop} {a : α}
    (h : ∀ c, tells c [] (.ok a)) : Converses (pure a) tells :=
  quiet (fun _ => rfl) fun w => h w.platform

theorem throw {tells : Client τ → List (Exchange τ) → Except (Failure τ) α → Prop} {e : Failure τ}
    (h : ∀ c, tells c [] (.error e)) : Converses (throw e) tells :=
  quiet (fun _ => rfl) fun w => h w.platform

/-- The exchanges of two operations in turn are those of the first and then those of the second,
unless the first fails. -/
theorem bind (hx : Converses x tells) (hf : ∀ a, Converses (f a) (Q a)) :
    Converses (x >>= f) fun c es outcome =>
      (∃ e, tells c es (.error e) ∧ outcome = .error e) ∨
        ∃ a before later, es = before ++ later ∧ tells c before (.ok a) ∧
          Q a (c.conversed before) later outcome := by
  intro w
  obtain ⟨before, hbefore, hanswered, htells⟩ := hx w
  cases hr : x.run w with
  | mk outcome v =>
    rw [hr] at hbefore htells
    cases outcome with
    | error e =>
      rw [run_bind_error hr]
      exact ⟨before, hbefore, hanswered, .inl ⟨e, htells, rfl⟩⟩
    | ok a =>
      obtain ⟨later, hlater, hanswered', hnext⟩ := hf a v
      rw [run_bind_ok hr]
      dsimp only at hbefore
      rw [hbefore] at hlater hanswered' hnext
      refine ⟨before ++ later, ?_, hanswered.append hanswered', .inr ⟨a, before, later, rfl, htells, hnext⟩⟩
      rw [hlater, conversed_append]

theorem get_bind {g : World (Client τ) τ → Run (Client τ) τ α} (h : ∀ w, Converses (g w) tells) :
    Converses (get >>= g) tells := fun w => h w w

theorem attempt (h : Converses x tells) :
    Converses (attempt x) fun c es outcome => ∃ tried, tells c es tried ∧ outcome = .ok tried := by
  intro w
  obtain ⟨es, hafter, hanswered, htells⟩ := h w
  exact ⟨es, hafter, hanswered, _, htells, rfl⟩

theorem of_puts {act : Act (Client τ) τ α} {asks : Client τ → Request → Prop}
    {read : Json → Parsed τ α} (h : Puts act asks read) :
    Converses (Run.onPlatform act) fun c es outcome =>
      (es = [] ∧ ∃ f, outcome = .error f) ∨
        ∃ e, es = [e] ∧ asks c e.request ∧ outcome = e.answer.payload >>= read := by
  intro w
  rcases h w.platform with ⟨f, hrun⟩ | ⟨q, hasks, hrun⟩
  · rw [run_onPlatform hrun]
    refine ⟨[], (conversed_nil _).symm, ?_, .inl ⟨rfl, f, rfl⟩⟩
    intro number e he
    cases he
  · rw [run_onPlatform hrun]
    refine ⟨[_], rfl, ?_, .inr ⟨_, rfl, hasks, rfl⟩⟩
    intro number e he
    cases number with
    | zero =>
      cases he
      rfl
    | succ number => cases he

end Converses

/-- Two ways to tell the exchanges of an operation tell of the same ones. -/
theorem Converses.and {x : Run (Client τ) τ α}
    {tells told : Client τ → List (Exchange τ) → Except (Failure τ) α → Prop}
    (h : Converses x tells) (h' : Converses x told) :
    Converses x fun c es outcome => tells c es outcome ∧ told c es outcome := by
  intro w
  obtain ⟨es, hafter, hanswered, htells⟩ := h w
  obtain ⟨es', hafter', hanswered', htold⟩ := h' w
  have hsame : es = es' := by
    rw [← transcript_conversed hanswered, ← transcript_conversed hanswered', ← hafter, hafter']
  subst hsame
  exact ⟨es, hafter, hanswered, htells, htold⟩

/-- What the exchanges of an operation that goes well have to do with its result. -/
def Finds (x : Run (Client τ) τ α) (told : Client τ → List (Exchange τ) → α → Prop) : Prop :=
  Converses x fun c es outcome => ∀ a, outcome = .ok a → told c es a

namespace Finds

variable {x : Run (Client τ) τ α} {f : α → Run (Client τ) τ β}
  {told told' : Client τ → List (Exchange τ) → α → Prop}
  {Q : α → Client τ → List (Exchange τ) → β → Prop}

theorem imp (h : Finds x told) (himp : ∀ c es a, told c es a → told' c es a) : Finds x told' :=
  Converses.imp h fun c es _ htold a ha => himp c es a (htold a ha)

theorem pure {a : α} (h : ∀ c, told c [] a) : Finds (pure a) told := by
  refine Converses.pure fun c b hb => ?_
  cases hb
  exact h c

theorem pure_exact (a : α) : Finds (Pure.pure a : Run (Client τ) τ α) fun _ es b => es = [] ∧ b = a :=
  pure fun _ => ⟨rfl, rfl⟩

theorem throw (e : Failure τ) : Finds (throw e) told := by
  refine Converses.throw fun c a ha => ?_
  cases ha

theorem bind (hx : Finds x told) (hf : ∀ a, Finds (f a) (Q a)) :
    Finds (x >>= f) fun c es b => ∃ a before later, es = before ++ later ∧ told c before a ∧
      Q a (c.conversed before) later b := by
  refine (Converses.bind hx hf).imp fun c es outcome h b hb => ?_
  rcases h with ⟨e, -, he⟩ | ⟨a, before, later, hes, htold, hnext⟩
  · rw [he] at hb
    cases hb
  · exact ⟨a, before, later, hes, htold a rfl, hnext b hb⟩

end Finds

/-- An operation that changes nothing at the server. -/
def OnlyGets (x : Run (Client τ) τ α) : Prop :=
  Converses x fun _ es _ => ∀ e ∈ es, e.request.method = "GET"

theorem onlyGets_of_puts {act : Act (Client τ) τ α} {read : Json → Parsed τ α}
    {asks : Client τ → Request → Prop} (h : Puts act asks read)
    (hget : ∀ c q, asks c q → q.method = "GET") : OnlyGets (Run.onPlatform act) := by
  refine (Converses.of_puts h).imp fun c es outcome hes => ?_
  rcases hes with ⟨rfl, -⟩ | ⟨e, rfl, hasks, -⟩
  · exact fun e he => absurd he List.not_mem_nil
  · intro e' he
    rw [List.mem_singleton.mp he]
    exact hget c e.request hasks

theorem onlyGets_quiet {x : Run (Client τ) τ α}
    (h : ∀ w : World (Client τ) τ, (x.run w).2.platform = w.platform) : OnlyGets x :=
  Converses.quiet h fun _ _ he => absurd he List.not_mem_nil

theorem onlyGets_composed : Composed (OnlyGets (τ := τ)) where
  pure _ := onlyGets_quiet fun _ => rfl
  throw _ := onlyGets_quiet fun _ => rfl
  bind hx hf := by
    refine (Converses.bind hx hf).imp fun c es outcome hes => ?_
    rcases hes with ⟨_, hbefore, -⟩ | ⟨_, before, later, rfl, hbefore, hlater⟩
    · exact hbefore
    · intro e he
      exact (List.mem_append.mp he).elim (hbefore e) (hlater e)
  attempt hx := hx.attempt.imp fun _ _ _ ⟨_, hes, _⟩ => hes
  surroundings _ h := Converses.get_bind h

theorem Requests.method_eq {method path : String} {params : Option (List (String × String))}
    {q : Request} (h : c.Requests method path params q) : q.method = method := by
  obtain ⟨url, -, rfl⟩ := h
  rfl

variable [Add τ]

theorem onlyGets_getJob (jobId : String) : OnlyGets (Run.getJob (σ := Client τ) jobId) :=
  onlyGets_composed.bind (x := modify _) (onlyGets_quiet fun _ => rfl) fun _ =>
    onlyGets_of_puts (getJob_puts jobId) fun _ _ hasks => hasks.method_eq

theorem onlyGets_sleep (duration : τ) : OnlyGets (Run.sleep (σ := Client τ) duration) :=
  onlyGets_quiet (show Preserves id (Run.sleep duration) from preserves_sleep duration)

/-- Waiting for a job only asks for it. -/
theorem onlyGets_awaitJob [Sub τ] [OfNat τ 0] [LE τ] [LT τ] [DecidableLE τ] [DecidableLT τ]
    (p : Poller τ) (job : Job) : OnlyGets (p.awaitJob (σ := Client τ) job) :=
  onlyGets_composed.awaitJob (fun _ _ => onlyGets_quiet fun _ => rfl) onlyGets_sleep p
    (onlyGets_getJob job.id)

end Client

end PlatformRoutes.Http
