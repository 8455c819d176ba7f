import PlatformRoutes.Proofs.WireRecords

namespace PlatformRoutes.Http

variable {τ α : Type}

namespace Client

variable {c : Client τ} {resource : Resource} {filters : Filters} {later : List (Answer τ)}

/-- A body that reads as JSON is not empty, so it is what a good answer holds. -/
theorem payload_of_readBody {status : Nat} {body : String} {v : Json} (hgood : status < 400)
    (hcontent : status ≠ 204) (h : (readBody body : Parsed τ Json) = .ok v) :
    (payload status body : Parsed τ Json) = .ok v := by
  have hempty : body.isEmpty = false := by
    by_cases hbody : body = ""
    · subst hbody
      cases h
    · simpa using hbody
  have hstatus : (status == 204) = false := by simpa using hcontent
  rw [payload_read (.inl hgood), hstatus, hempty]
  exact h

/-- What is parsed off a good answer, and what is left of the client. -/
theorem run_parsed {method path : String} {params : Option (List (String × String))} {q : Request}
    {status : Nat} {body : String} {v : Json} (parse : Json → Parsed τ α)
    (hopen : c.closed = false) (hasks : c.Requests method path params q)
    (hanswers : c.answers = .response status body :: later) (hgood : status < 400)
    (hcontent : status ≠ 204) (hbody : (readBody body : Parsed τ Json) = .ok v) :
    (do ofOutcome (parse (← request method path params none))).run c =
      (parse v, { c with answers := later, sent := c.sent ++ [q] }) := by
  obtain ⟨url, hurl, rfl⟩ := hasks
  have hsame : { c with answers := .response status body :: later } = c := by rw [← hanswers]
  have hrun : (request method path params none).run c = (payload status body,
      { c with answers := later, sent := c.sent ++ [requestFor c method url none] }) := by
    rw [← run_request hurl (by simp [hopen]) status body later, hsame]
  rw [payload_of_readBody hgood hcontent hbody] at hrun
  exact run_bind_ok hrun

theorem append?_isSome (base : Url) (path : String) (params : Option (List (String × String))) :
    (base.append? path params).isSome = !Url.hasControl path := by
  unfold Url.append?
  split <;> simp [*]

/-- If one page of a listing can be asked for, any can. -/
theorem exists_asksPage {number : Int} (h : ∃ q, c.AsksPage resource filters number q) (n : Int) :
    ∃ q, c.AsksPage resource filters n q := by
  obtain ⟨_, path, hpath, url, hurl, -⟩ := h
  have hsome : (c.base.append? path
      (some (listParams resource filters n c.pageSize))).isSome = true := by
    rw [append?_isSome, ← append?_isSome c.base path, hurl]
    rfl
  obtain ⟨url', hurl'⟩ := Option.isSome_iff_exists.mp hsome
  exact ⟨requestFor c "GET" url' none, path, hpath, url', hurl', rfl⟩

/-- Whether a body reads as a value of some form. -/
def spells (τ : Type) (body : String) (form : Json → Bool) : Bool :=
  match (readBody body : Parsed τ Json) with
  | .ok v => form v
  | .error _ => false

theorem spells_iff {body : String} {form : Json → Bool} :
    spells τ body form = true ↔ ∃ v, (readBody body : Parsed τ Json) = .ok v ∧ form v = true := by
  unfold spells
  cases h : (readBody body : Parsed τ Json) <;> simp

/-- Whether bodies spell some pages of a listing, one each. -/
def Spells (τ : Type) (resource : Resource) (total : Nat) (bodies : List String)
    (pages : List (List resource.Item)) : Prop :=
  List.Forall₂ (fun body items => spells τ body (writesPage resource total · items) = true)
    bodies pages

/-- A server that answers the requests for a listing with its pages, and with other things later. -/
structure Serves (c : Client τ) (resource : Resource) (filters : Filters)
    (pages : List (List resource.Item)) (later : List (Answer τ)) : Prop where
  opened : c.closed = false
  asked : ∃ q, c.AsksPage resource filters 1 q
  paged : pages ≠ []
  formed : ∀ items ∈ pages, ∀ x ∈ items, wellFormed resource x = true
  answers : ∃ bodies : List String, c.answers = bodies.map (.response 200) ++ later ∧
    Spells τ resource pages.length bodies pages

/-- A server that answers the next request with a job. -/
structure Replies (c : Client τ) (job : Job) (later : List (Answer τ)) : Prop where
  opened : c.closed = false
  named : job.id ≠ ""
  answer : ∃ status body, c.answers = .response status body :: later ∧ status < 400 ∧ status ≠ 204 ∧
    spells τ body (writesJob · job) = true

theorem run_page {number total : Nat} {items : List resource.Item} {q : Request} {body : String}
    (hopen : c.closed = false) (hasks : c.AsksPage resource filters number q)
    (hanswers : c.answers = .response 200 body :: later)
    (hbody : spells τ body (writesPage resource total · items) = true)
    (hitems : ∀ x ∈ items, wellFormed resource x = true) (hnumber : 1 ≤ number) :
    (listResources resource filters number).run c =
      (.ok ⟨items, number, total⟩, { c with answers := later, sent := c.sent ++ [q] }) := by
  obtain ⟨path, hpath, hrequests⟩ := hasks
  obtain ⟨v, hread, hpage⟩ := spells_iff.mp hbody
  have hrun := run_parsed (parsePage resource number) hopen hrequests hanswers (by omega) (by omega)
    hread
  rw [parsePage_of_writes hpage hitems hnumber] at hrun
  rw [listResources, hpath]
  exact hrun

/-- From any page on, a listing yields what the bodies to come spell, at one request for each. -/
theorem run_traverse {total : Nat} {bodies : List String} {pages : List (List resource.Item)}
    (h : Spells τ resource total bodies pages) {w : World (Client τ) τ} {ask : Nat → Request}
    (hpages : ∀ items ∈ pages, ∀ x ∈ items, wellFormed resource x = true) (hne : pages ≠ [])
    (fuel : Nat) {number : Nat} (hnumber : 1 ≤ number) (hlast : number + pages.length = total + 1)
    (hfuel : pages.length ≤ fuel) (hopen : w.platform.closed = false)
    (hask : ∀ n : Nat, w.platform.AsksPage resource filters n (ask n))
    (hanswers : w.platform.answers = bodies.map (.response 200) ++ later) :
    (Paging.traverse (Run.pagesOf resource filters) pure fuel number).run w =
      (.ok pages.flatten, { w with platform := { w.platform with
        answers := later
        sent := w.platform.sent ++ (List.range' number pages.length).map ask } }) := by
  induction h generalizing w fuel number with
  | nil => exact absurd rfl hne
  | @cons body items bodies pages hfirst hrest ih =>
    obtain ⟨fuel, rfl⟩ : ∃ n, fuel = n + 1 := ⟨fuel - 1, by simp at hfuel; omega⟩
    have hitems := hpages items List.mem_cons_self
    have hpage : (Run.pagesOf resource filters number).run w = (.ok ⟨items, number, total⟩,
        { w with platform := { w.platform with
          answers := bodies.map (.response 200) ++ later
          sent := w.platform.sent ++ [ask number] } }) :=
      run_onPlatform (run_page hopen (hask number) hanswers hfirst hitems hnumber)
    rw [Paging.traverse, run_bind_ok hpage, run_bind_ok (Store.run_mapM_pure _ _)]
    dsimp only
    cases pages with
    | nil =>
      cases hrest
      have hnext : (Page.mk items (number : Int) (total : Int)).hasNext = false := by
        simp [Page.hasNext] at hlast ⊢
        omega
      rw [hnext]
      simp
      rfl
    | cons next pages =>
      have hnext : (Page.mk items (number : Int) (total : Int)).hasNext = true := by
        simp [Page.hasNext] at hlast ⊢
        omega
      rw [hnext, if_pos rfl]
      have hothers := ih (w := { w with platform := { w.platform with
          answers := (bodies.map (.response 200)) ++ later
          sent := w.platform.sent ++ [ask number] } })
        (fun items hmem => hpages items (List.mem_cons_of_mem _ hmem)) (List.cons_ne_nil _ _) fuel
        (by omega : 1 ≤ number + 1) (by simp at hlast ⊢; omega) (by simp at hfuel ⊢; omega) hopen hask
        rfl
      rw [run_bind_ok hothers]
      simp [List.range'_succ]
      rfl

/-- A job is what the request that brought it was answered with. -/
theorem run_job {method path : String} {params : Option (List (String × String))} {q : Request}
    {job : Job} (h : c.Replies job later) (hasks : c.Requests method path params q) :
    (do ofOutcome (parseJob (← request method path params none))).run c =
      (.ok job, { c with answers := later, sent := c.sent ++ [q] }) := by
  obtain ⟨status, body, hanswers, hgood, hcontent, hbody⟩ := h.answer
  obtain ⟨v, hread, hjob⟩ := spells_iff.mp hbody
  have hrun := run_parsed parseJob h.opened hasks hanswers hgood hcontent hread
  rwa [parseJob_of_writes hjob h.named] at hrun

/-- What is read off the wire is what was put on it. A listing yields the records of its pages in
their order, for one request a page; and a job is the one that was answered. -/
theorem wire_exact :
    (∀ (w : World (Client τ) τ) (resource : Resource) (filters : Filters)
        (pages : List (List resource.Item)) (later : List (Answer τ)),
      w.platform.Serves resource filters pages later →
      ∃ requests : List Request, requests.length = pages.length ∧
        (∀ (i : Nat) q, requests[i]? = some q →
          w.platform.AsksPage resource filters (i + 1 : Nat) q) ∧
        Ends (Run.listAll resource filters) w (.ok pages.flatten) { w with platform :=
          { w.platform with answers := later, sent := w.platform.sent ++ requests } }) ∧
    (∀ (c : Client τ) (jobId : String) (q : Request) (job : Job) (later : List (Answer τ)),
      c.Requests "GET" ("/v2/jobs/" ++ jobId) none q → c.Replies job later →
      (getJob jobId).run c = (.ok job, { c with answers := later, sent := c.sent ++ [q] })) ∧
    ∀ (c : Client τ) (routeId : String) (q : Request) (job : Job) (later : List (Answer τ)),
      c.AsksDeletion routeId q → c.Replies job later →
      (deleteRoute routeId).run c =
        (.ok job, { c with answers := later, sent := c.sent ++ [q] }) := by
  refine ⟨?_, ?_, ?_⟩
  · intro w resource filters pages later h
    obtain ⟨bodies, hanswers, hspells⟩ := h.answers
    choose ask hask using exists_asksPage h.asked
    refine ⟨(List.range' 1 pages.length).map fun n : Nat => ask n, by simp, ?_, ?_⟩
    · intro i q hq
      obtain ⟨hi, rfl⟩ := List.getElem?_eq_some_iff.mp hq
      rw [List.getElem_map, List.getElem_range', Nat.one_mul, Nat.add_comm]
      exact hask _
    · refine ⟨pages.length, ?_⟩
      intro n hn
      exact run_traverse (w := { w with patience := n }) hspells h.formed h.paged n (Nat.le_refl 1)
        (Nat.add_comm _ _) hn h.opened (fun n => hask n) hanswers
  · intro c jobId q job later hasks h
    exact run_job h hasks
  · intro c routeId q job later hasks h
    exact run_job h hasks

/-- A client whose next answers hold some bodies. -/
def hearing (bodies : List String) : Client Float where
  base := ⟨"https", "", "api.test", none, "/", none, none⟩
  pageSize := 2
  headers := [("Accept", "application/json")]
  answers := bodies.map (.response 200)
  silence := .unreachable ""

/-- Two routes on three pages, the second of which is empty. Of the second route only the domain and
the service instance are written. -/
def routeBodies : List String :=
  ["\x7b\"total_pages\": 3, \"resources\": [\x7b\"metadata\": \x7b\"guid\": " ++
      "\"r1\"\x7d, \"entity\": \x7b\"domain_guid\": \"d1\", \"space_guid\": \"s1\", " ++
      "\"host\": \"api\", \"path\": \"/v1\", \"service_instance_guid\": " ++
      "null\x7d\x7d]\x7d",
    "\x7b\"resources\": [], \"total_pages\": 3\x7d",
    "\x7b\"total_pages\": 3, \"resources\": [\x7b\"metadata\": \x7b\"guid\": " ++
      "\"r2\", \"url\": \"/v2/routes/r2\"\x7d, \"entity\": \x7b\"domain_guid\": " ++
      "\"d1\", \"service_instance_guid\": \"i1\"\x7d\x7d]\x7d"]

def routePages : List (List Route) :=
  [[⟨"r1", "d1", "s1", "api", "/v1", none⟩], [], [⟨"r2", "d1", "", "", "", some "i1"⟩]]

def failedJob : Job := ⟨"j1", .failed, some ⟨0, "", "CF-Gone"⟩⟩

def failedBody : String :=
  "\x7b\"metadata\": \x7b\"guid\": \"j1\"\x7d, \"entity\": \x7b\"status\": " ++
    "\"Failed\", \"error_details\": \x7b\"code\": 0, \"description\": \"\", " ++
    "\"error_code\": \"CF-Gone\"\x7d\x7d\x7d"

def hearingRoutes : World (Client Float) Float where
  platform := hearing routeBodies
  clock := 0
  fetchCost := 0
  cancelAt := none
  sleeps := []
  events := []
  patience := 0

theorem exists_requests (bodies : List String) (method path : String)
    (params : Option (List (String × String))) (h : Url.hasControl path = false) :
    ∃ q, (hearing bodies).Requests method path params q := by
  have hsome : ((hearing bodies).base.append? path params).isSome = true := by
    rw [append?_isSome, h]
    rfl
  obtain ⟨url, hurl⟩ := Option.isSome_iff_exists.mp hsome
  exact ⟨_, url, hurl, rfl⟩

theorem hearing_replies : (hearing [failedBody]).Replies failedJob [] where
  opened := rfl
  named := by decide
  answer := ⟨200, failedBody, rfl, by decide, by decide, by decide +kernel⟩

theorem hearing_serves :
    hearingRoutes.platform.Serves .routes [(.domainId, "d1"), (.host, "api")] routePages [] where
  opened := rfl
  asked := by
    obtain ⟨q, hq⟩ := exists_requests routeBodies "GET" "/v2/routes" _ (by decide)
    exact ⟨q, "/v2/routes", rfl, hq⟩
  paged := by decide
  formed := by decide +kernel
  answers := by
    refine ⟨routeBodies, (List.append_nil _).symm, ?_⟩
    exact .cons (by decide +kernel) (.cons (by decide +kernel) (.cons (by decide +kernel) .nil))

theorem wire_exact_routes :
    hearingRoutes.platform.Serves .routes [(.domainId, "d1"), (.host, "api")] routePages [] ∧
      (hearing [failedBody]).Replies failedJob [] ∧
      (∃ requests : List Request, requests.length = 3 ∧
        Ends (Run.listAll .routes [(.domainId, "d1"), (.host, "api")]) hearingRoutes
          (.ok [⟨"r1", "d1", "s1", "api", "/v1", none⟩, ⟨"r2", "d1", "", "", "", some "i1"⟩])
          { hearingRoutes with platform :=
            { hearingRoutes.platform with answers := [], sent := requests } }) ∧
      (∃ c, (getJob "j1").run (hearing [failedBody]) = (.ok failedJob, c)) ∧
      ∃ c, (deleteRoute "r1").run (hearing [failedBody]) = (.ok failedJob, c) := by
  obtain ⟨hlisting, hjob, hdeletion⟩ := wire_exact (τ := Float)
  obtain ⟨requests, hlength, -, hends⟩ := hlisting _ _ _ _ _ hearing_serves
  obtain ⟨q, hq⟩ := exists_requests [failedBody] "GET" ("/v2/jobs/" ++ "j1") none (by decide)
  obtain ⟨q', hq'⟩ := exists_requests [failedBody] "DELETE" ("/v2/routes/" ++ "r1")
    (some [("async", "true")]) (by decide)
  refine ⟨hearing_serves, hearing_replies, ⟨requests, hlength, hends⟩, ?_, ?_⟩
  · exact ⟨_, hjob _ _ _ _ _ hq hearing_replies⟩
  · exact ⟨_, hdeletion _ _ _ _ _ hq' hearing_replies⟩

end Client

end PlatformRoutes.Http
