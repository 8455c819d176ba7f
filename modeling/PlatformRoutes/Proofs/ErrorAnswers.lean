import PlatformRoutes.Http.Client
import PlatformRoutes.Proofs.Requests

namespace PlatformRoutes

/-- The failures that stand for a platform's own error answers. -/
def Failure.isPlatform : Failure τ → Bool
  | platform _ _ _ _ => true
  | _ => false

namespace Http

variable {τ α β : Type}

/-- What is read off an answer fails for reasons of its own, never in the platform's name. -/
def Local (x : Parsed τ α) : Prop := ∀ f, x = .error f → f.isPlatform = false

namespace Local

variable {x : Parsed τ α}

theorem ok (a : α) : Local (.ok a : Parsed τ α) := by
  intro f h
  cases h

theorem error {f : Failure τ} (h : f.isPlatform = false) : Local (.error f : Parsed τ α) := by
  rintro _ ⟨⟩
  exact h

theorem bind {f : α → Parsed τ β} (hx : Local x) (hf : ∀ a, Local (f a)) : Local (x >>= f) := by
  cases x with
  | ok a => exact hf a
  | error e => exact error (hx e rfl)

theorem mapM {f : α → Parsed τ β} (hf : ∀ a, Local (f a)) (l : List α) : Local (l.mapM f) := by
  induction l with
  | nil => exact ok []
  | cons a l ih =>
    rw [List.mapM_cons]
    exact (hf a).bind fun b => ih.bind fun bs => ok (b :: bs)

theorem toExcept (x : Checked α) : Local (x.toExcept : Parsed τ α) := by
  cases x with
  | ok a => exact ok a
  | faulty faults => exact error rfl
  | misshapen => exact error rfl

theorem fieldsOf (v : Json) : Local (fieldsOf v : Parsed τ Json.Fields) := by
  cases v with
  | object fields => exact ok fields
  | _ => exact error rfl

theorem fieldsOrNone (v : Option Json) : Local (fieldsOrNone v : Parsed τ Json.Fields) := by
  unfold Http.fieldsOrNone
  split
  · exact ok []
  · exact fieldsOf _

theorem truncate (x : Float) : Local (truncate x : Parsed τ Int) := by
  unfold Http.truncate
  split
  · exact error rfl
  · exact error rfl
  · exact ok _

theorem wholeOrZero (v : Option Json) : Local (wholeOrZero v : Parsed τ Int) := by
  unfold Http.wholeOrZero
  split
  · exact ok 0
  · exact ok _
  · exact ok _
  · exact truncate _
  · split
    · exact ok _
    · exact error rfl
  · exact error rfl

theorem envelope (v : Json) : Local (Envelope.open v : Parsed τ Envelope) :=
  (fieldsOf v).bind fun _ => (fieldsOrNone _).bind fun _ => (fieldsOrNone _).bind fun _ => ok _

theorem details (e : Envelope) : Local (e.details : Parsed τ (Option ErrorDetails)) := by
  unfold Envelope.details
  split
  · exact ok none
  · exact (fieldsOf _).bind fun _ => (wholeOrZero _).bind fun _ => ok _

theorem toJob (e : Envelope) : Local (e.toJob : Parsed τ Job) := by
  refine (details e).bind fun _ => ?_
  split
  · exact error rfl
  · exact ok _

theorem parseJob (v : Json) : Local (parseJob v : Parsed τ Job) := (envelope v).bind toJob

theorem parseRoute (v : Json) : Local (parseRoute v : Parsed τ Route) :=
  (envelope v).bind fun _ => toExcept _

theorem itemsOf (v : Json) : Local (itemsOf v : Parsed τ (List Json)) := by
  cases v with
  | list items => exact ok items
  | text s => exact ok _
  | object fields => exact ok _
  | _ => exact error rfl

theorem parsePage (resource : Resource) (number : Int) (v : Json) :
    Local (parsePage resource number v : Parsed τ (Page resource.Item)) := by
  have page (items : List Json) (fields : Json.Fields) : Local (do
      let items ← items.mapM (parseItem (τ := τ) resource)
      let total ← Http.wholeOrZero (fields.get? "total_pages")
      (Page.of items number total).toExcept) :=
    (mapM (fun item => (envelope item).bind fun _ => toExcept _) items).bind fun _ =>
      (wholeOrZero _).bind fun _ => toExcept _
  refine (fieldsOf v).bind fun fields => ?_
  split
  · exact page [] fields
  · exact (itemsOf _).bind fun items => page items fields

theorem readBody (body : String) : Local (readBody body : Parsed τ Json) := by
  unfold Http.readBody
  split
  · exact error rfl
  · split
    · exact ok _
    · exact error rfl
    · exact error rfl

end Local

namespace Client

/-- An action that sends one request, if any, and makes its outcome of the answer. -/
def Exchanges (act : Act (Client τ) τ α) (read : Json → Parsed τ α) : Prop :=
  ∀ c : Client τ,
    (∀ answers, ∃ f, act.run { c with answers } = (.error f, { c with answers })) ∨
    ∃ request, ∀ status body rest,
      act.run { c with answers := .response status body :: rest } =
        (payload status body >>= read,
          { c with answers := rest, sent := c.sent ++ [request] })

variable {act : Act (Client τ) τ α} {read : Json → Parsed τ α}

theorem run_ofOutcome {σ : Type} (outcome : Except (Failure τ) α) (s : σ) :
    (ofOutcome outcome : Act σ τ α).run s = (outcome, s) := rfl

theorem run_send (request : Request) (c : Client τ) (status : Nat) (body : String)
    (rest : List (Answer τ)) :
    (send request).run { c with answers := .response status body :: rest } =
      (.ok (status, body), { c with answers := rest, sent := c.sent ++ [request] }) := by
  rw [send, run_bind_ok (x := get) rfl]
  dsimp only
  exact run_bind_ok (x := set _) rfl

section Request
variable {c : Client τ} {method path : String} {params : Option (List (String × String))}
  {body : Option Json} {url : Url}

/-- The request that is sent for a path below the client's address. -/
def requestFor (c : Client τ) (method : String) (url : Url) (body : Option Json) : Request where
  method
  url := url.text
  body := (body.map fun v => String.ofList v.compact).getD ""
  headers := c.headersFor body.isSome

theorem run_request_unusable (hurl : c.base.append? path params = none) :
    (request method path params body).run c = (.error .unusableAddress, c) := by
  rw [request, run_bind_ok (x := get) rfl]
  dsimp only
  rw [hurl]
  rfl

theorem run_request_closed (hurl : c.base.append? path params = some url)
    (hclosed : c.closed = true) : (request method path params body).run c = (.error .closed, c) := by
  rw [request, run_bind_ok (x := get) rfl]
  dsimp only
  rw [hurl]
  dsimp only
  rw [if_pos hclosed]
  exact run_bind_error rfl

theorem run_request (hurl : c.base.append? path params = some url) (hopen : ¬ c.closed = true)
    (status : Nat) (answer : String) (rest : List (Answer τ)) :
    (request method path params body).run { c with answers := .response status answer :: rest } =
      (payload status answer,
        { c with answers := rest, sent := c.sent ++ [requestFor c method url body] }) := by
  rw [request, run_bind_ok (x := get) rfl]
  dsimp only
  rw [hurl]
  dsimp only
  rw [if_neg hopen]
  apply (run_bind_ok (run_send _ c status answer rest)).trans
  rw [run_ofOutcome]
  rfl

end Request

theorem request_exchanges (method path : String) (params : Option (List (String × String)))
    (body : Option Json) : Exchanges (τ := τ) (request method path params body) .ok := by
  intro c
  cases hurl : c.base.append? path params with
  | none => exact .inl fun answers => ⟨_, run_request_unusable (c := { c with answers }) hurl⟩
  | some url =>
    by_cases hclosed : c.closed = true
    · exact .inl fun answers => ⟨_, run_request_closed (c := { c with answers }) hurl hclosed⟩
    · refine .inr ⟨requestFor c method url body, fun status answer rest => ?_⟩
      rw [run_request hurl hclosed]
      cases payload (τ := τ) status answer <;> rfl

/-- What is read off the outcome is read off the answer. -/
theorem Exchanges.bind {f : α → Parsed τ β} (h : Exchanges act read) :
    Exchanges (act >>= fun a => ofOutcome (f a)) fun v => read v >>= f := by
  intro c
  rcases h c with hnone | ⟨request, hsome⟩
  · refine .inl fun answers => ?_
    obtain ⟨failure, hrun⟩ := hnone answers
    exact ⟨failure, run_bind_error hrun⟩
  · refine .inr ⟨request, fun status body rest => ?_⟩
    have hrun := hsome status body rest
    rw [← bind_assoc]
    cases hread : payload status body >>= read with
    | ok a =>
      rw [hread] at hrun
      rw [run_bind_ok hrun]
      rfl
    | error failure =>
      rw [hread] at hrun
      rw [run_bind_error hrun]
      rfl

theorem Exchanges.discard (h : Exchanges act read) :
    Exchanges (do let _ ← act; return ()) fun v => read v >>= fun _ => .ok () :=
  h.bind (f := fun _ => .ok ())

theorem request_parsed (method path : String) (params : Option (List (String × String)))
    (body : Option Json) (parse : Json → Parsed τ α) :
    Exchanges (request method path params body >>= fun v => ofOutcome (parse v)) parse :=
  (request_exchanges method path params body).bind (f := parse)

/-- A failure before an exchange keeps the request from being sent. -/
theorem Exchanges.after {γ : Type} {first : Parsed τ γ} {next : γ → Act (Client τ) τ α}
    (h : ∀ a, Exchanges (next a) read) : Exchanges (ofOutcome first >>= next) read := by
  intro c
  cases first with
  | error failure => exact .inl fun answers => ⟨failure, run_bind_error rfl⟩
  | ok a => exact h a c

theorem listResources_exchanges (resource : Resource) (filters : Filters) (page : Int) :
    Exchanges (τ := τ) (listResources resource filters page) (parsePage resource page) := by
  refine Exchanges.after fun path c => ?_
  exact request_parsed "GET" path (some (listParams resource filters page c.pageSize)) none
    (parsePage resource page) c

theorem createRoute_exchanges (domainId spaceId : String) (host path : Option String) :
    Exchanges (τ := τ) (createRoute domainId spaceId host path) parseRoute :=
  request_parsed _ _ _ _ parseRoute

theorem deleteRoute_exchanges (routeId : String) :
    Exchanges (τ := τ) (deleteRoute routeId) parseJob := request_parsed _ _ _ _ parseJob

theorem getJob_exchanges (jobId : String) : Exchanges (τ := τ) (getJob jobId) parseJob :=
  request_parsed _ _ _ _ parseJob

/-- Every request to the platform is one exchange, and what it reads off an answer fails for
reasons of its own. -/
theorem perform_exchanges (q : PlatformRoutes.Request) :
    ∃ read, (∀ v, Local (read v)) ∧ Exchanges (τ := τ) q.perform read := by
  have unit {α : Type} {x : Parsed τ α} (h : Local x) : Local (x >>= fun _ => .ok ()) :=
    h.bind fun _ => Local.ok ()
  cases q with
  | listResources resource filters page =>
    exact ⟨_, fun v => unit (Local.parsePage resource page v),
      (listResources_exchanges resource filters page).discard⟩
  | createRoute domainId spaceId host path =>
    exact ⟨_, fun v => unit (Local.parseRoute v),
      (createRoute_exchanges domainId spaceId host path).discard⟩
  | deleteRoute routeId =>
    exact ⟨_, fun v => unit (Local.parseJob v),
      (deleteRoute_exchanges routeId).discard⟩
  | getJob jobId =>
    exact ⟨_, fun v => unit (Local.parseJob v),
      (getJob_exchanges jobId).discard⟩
  | associateRoute applicationId routeId =>
    exact ⟨_, fun v => unit (Local.ok v), (request_exchanges _ _ _ _).discard⟩
  | removeRoute applicationId routeId =>
    exact ⟨_, fun v => unit (Local.ok v), (request_exchanges _ _ _ _).discard⟩

/-- The code that the body of an error gives. Zero stands for a body or a code that says nothing. -/
def bodyCode (body : String) : Parsed τ Int :=
  match (readBody body : Parsed τ Json) with
  | .ok (.object fields) => wholeOrZero (Json.Fields.get? fields "code")
  | _ => .ok 0

theorem local_bodyCode (body : String) : Local (bodyCode body : Parsed τ Int) := by
  unfold bodyCode
  split
  · exact Local.wholeOrZero _
  · exact Local.ok 0

/-- A body that is no object is taken for one without fields. -/
theorem exists_fields (status : Nat) (body : String) :
    ∃ fields, (bodyCode body : Parsed τ Int) = wholeOrZero (Json.Fields.get? fields "code") ∧
      errorOf (τ := τ) status (readBody body) = errorOf status (.ok (.object fields)) := by
  unfold bodyCode
  cases (readBody body : Parsed τ Json) with
  | error f => exact ⟨[], rfl, rfl⟩
  | ok v =>
    cases v with
    | object fields => exact ⟨fields, rfl, rfl⟩
    | _ => exact ⟨[], rfl, rfl⟩

/-- Only the code of an error's body can keep the error from being told as the platform's own. -/
theorem errorOf_readBody (status : Nat) (body : String) :
    (∀ code, (bodyCode body : Parsed τ Int) = .ok code → ∃ description errorCode,
      errorOf (τ := τ) status (readBody body) = .platform status code description errorCode) ∧
    ∀ f, (bodyCode body : Parsed τ Int) = .error f → errorOf (τ := τ) status (readBody body) = f := by
  obtain ⟨fields, hcode, herror⟩ := exists_fields (τ := τ) status body
  rw [hcode, herror, errorOf]
  refine ⟨fun code h => ?_, fun f h => ?_⟩
  · rw [h]
    exact ⟨_, _, rfl⟩
  · rw [h]

theorem payload_error {status : Nat} (h : 400 ≤ status ∧ status ≤ 599) (body : String) :
    (payload status body : Parsed τ Json) = .error (errorOf status (readBody body)) := by
  rw [payload, if_pos (by simpa using h)]

/-- What is no error is read, whatever it is. -/
theorem payload_read {status : Nat} (h : status < 400 ∨ 599 < status) (body : String) :
    (payload status body : Parsed τ Json) =
      if status == 204 || body.isEmpty then .ok (.object []) else readBody body := by
  have hstatus : ¬ (decide (400 ≤ status) && decide (status ≤ 599)) = true := by
    simp only [Bool.and_eq_true, decide_eq_true_eq]
    omega
  rw [payload, if_neg hstatus]

/-- An answer that is neither good nor an error is taken for a good one. -/
theorem payload_other {status : Nat} (hgood : status < 200 ∨ 299 < status)
    (herror : status < 400 ∨ 599 < status) (body : String) :
    (payload status body : Parsed τ Json) = payload 200 body := by
  have hempty : (status == 204) = false := by
    rw [beq_eq_false_iff_ne]
    omega
  rw [payload_read herror, payload_read (by omega), hempty]
  rfl

theorem local_payload {status : Nat} (h : status < 400 ∨ 599 < status) (body : String) :
    Local (payload status body : Parsed τ Json) := by
  rw [payload_read h]
  split
  · exact Local.ok _
  · exact Local.readBody body

/-- The code of an error's body that cannot be read is what is raised in place of the error. -/
theorem raised_of_code {status : Nat} (hlow : 400 ≤ status) (hhigh : status ≤ 599) {body : String}
    {f : Failure τ} (hf : (bodyCode body : Parsed τ Int) = .error f) :
    payload status body >>= read = .error f := by
  rw [payload_error ⟨hlow, hhigh⟩, (errorOf_readBody status body).2 f hf]
  rfl

/-- An answer that is no error is never told as one of the platform's. -/
theorem local_answer (hread : ∀ v, Local (read v)) {status : Nat} (h : status < 400 ∨ 599 < status)
    (body : String) : Local (payload status body >>= read) := (local_payload h body).bind hread

/-- What is told as an error of the platform. -/
theorem told_iff (hread : ∀ v, Local (read v)) (status : Nat) (body : String) :
    (∃ code description errorCode, payload status body >>= read =
      .error (.platform status code description errorCode)) ↔
      400 ≤ status ∧ status ≤ 599 ∧ ∃ code, (bodyCode body : Parsed τ Int) = .ok code := by
  constructor
  · rintro ⟨code, description, errorCode, hfailure⟩
    have herror : 400 ≤ status ∧ status ≤ 599 := by
      apply Decidable.byContradiction
      intro hother
      have := local_answer hread (by omega) body _ hfailure
      cases this
    refine ⟨herror.1, herror.2, ?_⟩
    cases hcode : (bodyCode body : Parsed τ Int) with
    | ok code => exact ⟨code, rfl⟩
    | error f =>
      have hlocal := local_bodyCode body f hcode
      rw [raised_of_code herror.1 herror.2 hcode] at hfailure
      cases hfailure
      cases hlocal
  · rintro ⟨hlow, hhigh, code, hcode⟩
    obtain ⟨description, errorCode, herrorOf⟩ := (errorOf_readBody status body).1 code hcode
    refine ⟨code, description, errorCode, ?_⟩
    rw [payload_error ⟨hlow, hhigh⟩, herrorOf]
    rfl

/-- What an answer outside 200 to 299 comes to, once its request was sent. It is told as an error of
the platform exactly if its status is an error status and its body's code reads as a whole number.
Where the code does not, that is the failure; and an answer of any other status is taken for a good
one. -/
theorem error_answer_exact (q : PlatformRoutes.Request) {c : Client τ} {status : Nat}
    {body : String} {rest : List (Answer τ)} (hnext : c.answers = .response status body :: rest)
    (hsent : (q.after c).sent ≠ c.sent) (hstatus : status < 200 ∨ 299 < status) :
    ((∃ code description errorCode,
        (q.perform.run c).1 = .error (.platform status code description errorCode)) ↔
      400 ≤ status ∧ status ≤ 599 ∧ ∃ code, (bodyCode body : Parsed τ Int) = .ok code) ∧
    (400 ≤ status → status ≤ 599 → ∀ f, (bodyCode body : Parsed τ Int) = .error f →
      (q.perform.run c).1 = .error f ∧ f.isPlatform = false) ∧
    (status < 400 ∨ 599 < status →
      (q.perform.run c).1 =
        (q.perform.run { c with answers := .response 200 body :: rest }).1 ∧
      ∀ f, (q.perform.run c).1 = .error f → f.isPlatform = false) := by
  obtain ⟨read, hlocal, hexchange⟩ := perform_exchanges (τ := τ) q
  have hc : { c with answers := .response status body :: rest } = c := by rw [← hnext]
  rcases hexchange c with hnone | ⟨request, hsome⟩
  · obtain ⟨f, hrun⟩ := hnone c.answers
    have hafter : q.after c = c := congrArg Prod.snd hrun
    exact absurd (congrArg Client.sent hafter) hsent
  · have hrun := congrArg Prod.fst (hsome status body rest)
    have hgood := congrArg Prod.fst (hsome 200 body rest)
    rw [hc] at hrun
    dsimp only at hrun hgood
    rw [hrun, hgood]
    refine ⟨told_iff hlocal status body, fun hlow hhigh f hf => ?_, fun hother => ⟨?_, ?_⟩⟩
    · exact ⟨raised_of_code hlow hhigh hf, local_bodyCode body f hf⟩
    · rw [payload_other hstatus hother]
    · exact local_answer hlocal hother body

/-- A client that is about to get a single answer. -/
def awaiting (status : Nat) (body : String) : Client Float where
  base := ⟨"https", "", "api.test", none, "/", none, none⟩
  pageSize := 2
  headers := [("Accept", "application/json")]
  answers := [.response status body]
  silence := .unreachable ""

/-- A request to take a route from an application. -/
def removal : PlatformRoutes.Request := .removeRoute "app-1" "route-1"

theorem exists_of_isOk {ε : Type} {x : Except ε α} (h : x.isOk = true) : ∃ a, x = .ok a := by
  cases x with
  | ok a => exact ⟨a, rfl⟩
  | error e => cases h

theorem ne_of_length {l m : List Request} (h : l.length ≠ m.length) : l ≠ m :=
  fun hlm => h (congrArg List.length hlm)

theorem error_answer_not_found :
    (awaiting 404 "").answers = [.response 404 ""] ∧
      (removal.after (awaiting 404 "")).sent ≠ (awaiting 404 "").sent ∧
      ∃ code description errorCode, (removal.perform.run (awaiting 404 "")).1 =
        .error (.platform 404 code description errorCode) := by
  have hsent : (removal.after (awaiting 404 "")).sent ≠ (awaiting 404 "").sent :=
    ne_of_length (by decide +kernel)
  have hcode : ∃ code, (bodyCode "" : Parsed Float Int) = .ok code :=
    exists_of_isOk (by decide +kernel)
  obtain ⟨htold, -, -⟩ := error_answer_exact removal (c := awaiting 404 "") rfl hsent (by omega)
  exact ⟨rfl, hsent, htold.mpr ⟨by omega, by omega, hcode⟩⟩

/-- Two answers outside 200 to 299 that are not told as errors of the platform: one is taken for
done, and the code of the other is not a number. -/
theorem error_answer_missed :
    (removal.after (awaiting 302 "")).sent ≠ (awaiting 302 "").sent ∧
      (removal.perform.run (awaiting 302 "")).1 = .ok () ∧
      (removal.after (awaiting 400 "\x7b\"code\": \"abc\"\x7d")).sent ≠
        (awaiting 400 "\x7b\"code\": \"abc\"\x7d").sent ∧
      ∃ f, (removal.perform.run (awaiting 400 "\x7b\"code\": \"abc\"\x7d")).1 = .error f ∧
        f.isPlatform = false := by
  have hmoved : ∃ done, (removal.perform.run (awaiting 302 "")).1 = .ok done :=
    exists_of_isOk (by decide +kernel)
  refine ⟨ne_of_length (by decide +kernel), hmoved.choose_spec, ne_of_length (by decide +kernel), ?_⟩
  have hraised : (match (removal.perform.run (awaiting 400 "\x7b\"code\": \"abc\"\x7d")).1 with
    | .error f => !f.isPlatform
    | .ok _ => false) = true := by decide +kernel
  split at hraised
  · rename_i f hf
    exact ⟨f, hf, by simpa using hraised⟩
  · cases hraised

end Client

end Http

end PlatformRoutes
