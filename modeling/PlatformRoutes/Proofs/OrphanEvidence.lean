import Mathlib.Data.List.Basic
import PlatformRoutes.Proofs.PageReading
import PlatformRoutes.Proofs.Transcript

namespace PlatformRoutes.Http

/-- A status that no platform answers an error with. -/
def IsNoError (status : Nat) : Prop := status < 400 ∨ 599 < status

/-- A status that a platform answers with where all went well. -/
def IsGood (status : Nat) : Prop := 200 ≤ status ∧ status ≤ 299
  deriving Decidable

variable {τ : Type} {fine fine' : Nat → Prop}

/-- What an answer of a fine status holds. -/
def Answer.Holds (fine : Nat → Prop) (a : Answer τ) (v : Json) : Prop :=
  ∃ status body, a = .response status body ∧ fine status ∧
    (Client.payload status body : Parsed τ Json) = .ok v

namespace Answer

variable {a : Answer τ} {v : Json}

theorem holds_of_payload (h : a.payload = .ok v) : a.Holds IsNoError v := by
  cases a with
  | failure f => cases h
  | response status body =>
    refine ⟨status, body, rfl, ?_, h⟩
    by_cases herror : 400 ≤ status ∧ status ≤ 599
    · rw [Answer.payload, Client.payload_error herror] at h
      cases h
    · unfold IsNoError
      omega

theorem Holds.imp (h : a.Holds fine v)
    (himp : ∀ status body, a = .response status body → fine status → fine' status) :
    a.Holds fine' v := by
  obtain ⟨status, body, hanswer, hfine, hpayload⟩ := h
  exact ⟨status, body, hanswer, himp status body hanswer hfine, hpayload⟩

end Answer

namespace Client

variable {c : Client τ} {routeId spaceId : String} {number : Nat} {es before later : List (Exchange τ)}
  {e : Exchange τ}

/-- A page of the space's routes was answered with a record of the route, and the record names no
service instance. -/
def ListsUnserved (fine : Nat → Prop) (c : Client τ) (spaceId routeId : String)
    (e : Exchange τ) : Prop :=
  ∃ (number : Nat) (v : Json) (records : List Json) (record : Json) (envelope : Envelope),
    c.AsksPage .spaceRoutes [(.spaceId, spaceId)] number e.request ∧ e.answer.Holds fine v ∧
    (recordsOf v : Parsed τ (List Json)) = .ok records ∧ record ∈ records ∧
    (Envelope.open record : Parsed τ Envelope) = .ok envelope ∧ envelope.guid = routeId ∧
    present (envelope.entity.get? "service_instance_guid") = none

/-- A page of the route's applications was answered without any, and with the number of all
pages. -/
def ShowsNone (fine : Nat → Prop) (c : Client τ) (routeId : String) (number : Nat) (total : Int)
    (e : Exchange τ) : Prop :=
  c.AsksPage .routeApplications [(.routeId, routeId)] number e.request ∧
    ∃ v, e.answer.Holds fine v ∧ (recordsOf v : Parsed τ (List Json)) = .ok [] ∧
      (reportedPages v : Parsed τ Int) = .ok total

/-- The pages of the route's applications from one on, each without any, to the one that is the last
by its own word. -/
inductive Bare (fine : Nat → Prop) (c : Client τ) (routeId : String) : Nat → List (Exchange τ) → Prop
  | last {number : Nat} {total : Int} {e : Exchange τ} :
      c.ShowsNone fine routeId number total e → total ≤ number → Bare fine c routeId number [e]
  | more {number : Nat} {total : Int} {e : Exchange τ} {es : List (Exchange τ)} :
      c.ShowsNone fine routeId number total e → number < total →
      Bare fine c routeId (number + 1) es → Bare fine c routeId number (e :: es)

/-- Before a request for the deletion of a route, the route was listed as one that serves no
instance, and after that all its applications were, and there were none. -/
def Evidenced (fine : Nat → Prop) (c : Client τ) (spaceId : String) (before : List (Exchange τ))
    (q : Request) : Prop :=
  ∃ routeId earlier pages, before = earlier ++ pages ∧ c.AsksDeletion routeId q ∧
    (∃ e ∈ earlier, c.ListsUnserved fine spaceId routeId e) ∧ c.Bare fine routeId 1 pages

theorem ListsUnserved.imp (h : c.ListsUnserved fine spaceId routeId e)
    (himp : ∀ status body, e.answer = .response status body → fine status → fine' status) :
    c.ListsUnserved fine' spaceId routeId e := by
  obtain ⟨number, v, records, record, envelope, hasks, hholds, hrest⟩ := h
  exact ⟨number, v, records, record, envelope, hasks, hholds.imp himp, hrest⟩

theorem ShowsNone.imp {total : Int} (h : c.ShowsNone fine routeId number total e)
    (himp : ∀ status body, e.answer = .response status body → fine status → fine' status) :
    c.ShowsNone fine' routeId number total e := by
  obtain ⟨hasks, v, hholds, hrest⟩ := h
  exact ⟨hasks, v, hholds.imp himp, hrest⟩

theorem Bare.imp (h : c.Bare fine routeId number es)
    (himp : ∀ e ∈ es, ∀ status body, e.answer = .response status body → fine status →
      fine' status) : c.Bare fine' routeId number es := by
  induction h with
  | last hnone hend => exact .last (hnone.imp (himp _ List.mem_cons_self)) hend
  | more hnone hmore _ ih =>
    exact .more (hnone.imp (himp _ List.mem_cons_self)) hmore
      (ih fun e he => himp e (List.mem_cons_of_mem _ he))

/-- A request is for the same whenever it is sent. -/
theorem Bare.of_conversed (h : (c.conversed before).Bare fine routeId number es) :
    c.Bare fine routeId number es := by
  induction h with
  | last hnone hend => exact .last hnone hend
  | more hnone hmore _ ih => exact .more hnone hmore ih

theorem Evidenced.imp {q : Request} (h : c.Evidenced fine spaceId before q)
    (himp : ∀ e ∈ before, ∀ status body, e.answer = .response status body → fine status →
      fine' status) : c.Evidenced fine' spaceId before q := by
  obtain ⟨routeId, earlier, pages, rfl, hasks, ⟨e, he, hlists⟩, hbare⟩ := h
  exact ⟨routeId, earlier, pages, rfl, hasks,
    ⟨e, he, hlists.imp (himp e (List.mem_append_left _ he))⟩,
    hbare.imp fun e he => himp e (List.mem_append_right _ he)⟩

section Pages

variable {resource : Resource} {filters : Filters}

/-- A page was asked for and read. -/
def ShowsPage (c : Client τ) (resource : Resource) (filters : Filters) (number : Nat)
    (p : Page resource.Item) (e : Exchange τ) : Prop :=
  c.AsksPage resource filters number e.request ∧ ∃ v records, e.answer.Holds IsNoError v ∧
    (recordsOf v : Parsed τ (List Json)) = .ok records ∧
    (records.mapM (parseItem resource) : Parsed τ (List resource.Item)) = .ok p.items ∧
    (reportedPages v : Parsed τ Int) = .ok p.totalPages ∧ p.page = number

/-- A page with the item was asked for and read. -/
def Shows (c : Client τ) (resource : Resource) (filters : Filters) (item : resource.Item)
    (e : Exchange τ) : Prop :=
  ∃ number p, c.ShowsPage resource filters number p e ∧ item ∈ p.items

theorem ShowsPage.page_eq {p : Page resource.Item} (h : c.ShowsPage resource filters number p e) :
    p.page = number := by
  obtain ⟨-, _, _, -, -, -, -, hnumber⟩ := h
  exact hnumber

theorem page_finds (resource : Resource) (filters : Filters) (number : Nat) :
    Finds (Run.pagesOf (σ := Client τ) resource filters number) fun c es p =>
      ∃ e, es = [e] ∧ c.ShowsPage resource filters number p e := by
  refine (Converses.of_puts (listResources_puts resource filters number)).imp fun c es outcome h => ?_
  rintro p rfl
  rcases h with ⟨-, f, hfailed⟩ | ⟨e, rfl, hasks, hread⟩
  · cases hfailed
  · obtain ⟨v, hpayload, hparse⟩ := Parsed.bind_eq_ok hread.symm
    obtain ⟨records, hrecords, hpage⟩ := parsePage_ok hparse
    exact ⟨e, rfl, hasks, v, records, Answer.holds_of_payload hpayload, hrecords, hpage⟩

theorem onlyGets_page (resource : Resource) (filters : Filters) (number : Int) :
    OnlyGets (Run.listResources (σ := Client τ) resource filters number) :=
  onlyGets_of_puts (listResources_puts resource filters number) fun _ _ ⟨_, _, hasks⟩ =>
    hasks.method_eq

/-- Every item of a listing was on a page of it. -/
theorem traverse_finds (fuel number : Nat) :
    Finds (Paging.traverse (Run.pagesOf (σ := Client τ) resource filters) pure fuel number)
      fun c es items => ∀ item ∈ items, ∃ e ∈ es, c.Shows resource filters item e := by
  induction fuel generalizing number with
  | zero => exact Finds.throw .stalled
  | succ fuel ih =>
    have hitems (p : Page resource.Item) :
        Finds (p.items.mapM pure : Run (Client τ) τ (List resource.Item))
          fun _ es items => es = [] ∧ items = p.items := by
      have hpure : p.items.mapM (pure : resource.Item → Run (Client τ) τ resource.Item) =
          pure (p.items.map id) := List.mapM_pure (f := id)
      rw [hpure, List.map_id]
      exact Finds.pure_exact p.items
    rw [Paging.traverse]
    refine ((page_finds resource filters number).bind fun p => (hitems p).bind
      (Q := fun handled c es items => ∀ item ∈ items, item ∈ handled ∨
        ∃ e ∈ es, c.Shows resource filters item e) fun handled => ?_).imp ?_
    · split
      · refine ((ih (number + 1)).bind fun rest => Finds.pure_exact (handled ++ rest)).imp ?_
        rintro c _ _ ⟨rest, later, _, rfl, hrest, rfl, rfl⟩ item hitem
        rw [List.append_nil]
        exact (List.mem_append.mp hitem).imp_right (hrest item)
      · exact Finds.pure fun c item hitem => .inl hitem
    · rintro c _ items ⟨p, _, _, rfl, ⟨e, rfl, hpage⟩, _, _, later, rfl, ⟨rfl, rfl⟩, hlater⟩ item hitem
      rcases hlater item hitem with hhere | ⟨e', he', hshows⟩
      · exact ⟨e, List.mem_cons_self, number, p, hpage, hhere⟩
      · exact ⟨e', List.mem_cons_of_mem e he', hshows⟩

theorem listAll_converses (resource : Resource) (filters : Filters) :
    Converses (Run.listAll (σ := Client τ) resource filters) fun c es outcome =>
      (∀ e ∈ es, e.request.method = "GET") ∧ ∀ items, outcome = .ok items →
        ∀ item ∈ items, ∃ e ∈ es, c.Shows resource filters item e := by
  have hgets : OnlyGets (Run.listAll (σ := Client τ) resource filters) :=
    onlyGets_composed.listAll onlyGets_page resource filters
  exact hgets.and (Converses.get_bind fun w => traverse_finds w.patience 1)

/-- A route that was read off a page without an instance was listed as such. -/
theorem Shows.listsUnserved {r : Route} (h : c.Shows .spaceRoutes [(.spaceId, spaceId)] r e)
    (hunserved : (r.serviceInstanceId.getD "").isEmpty = true) :
    c.ListsUnserved IsNoError spaceId r.id e := by
  obtain ⟨number, p, ⟨hasks, v, records, hholds, hrecords, hitems, -⟩, hr⟩ := h
  obtain ⟨record, hrecord, hparse⟩ := exists_of_mapM_ok hitems hr
  obtain ⟨envelope, hopen, hguid, hservice⟩ := parseItem_route hparse
  exact ⟨number, v, records, record, envelope, hasks, hholds, hrecords, hrecord, hopen, hguid,
    hservice hunserved⟩

end Pages

section Applications

theorem ShowsPage.showsNone {p : Page Ref}
    (h : c.ShowsPage .routeApplications [(.routeId, routeId)] number p e) (hnone : p.items = []) :
    c.ShowsNone IsNoError routeId number p.totalPages e := by
  obtain ⟨hasks, v, records, hholds, hrecords, hitems, htotal, -⟩ := h
  have hlength := length_of_mapM_ok hitems
  rw [hnone, List.length_nil, eq_comm, List.length_eq_zero_iff] at hlength
  rw [hlength] at hrecords
  exact ⟨hasks, v, hholds, hrecords, htotal⟩

/-- Whoever finds no first application has seen all pages of them. -/
theorem pull_finds (routeId : String) (fuel number : Nat) :
    Finds (Cursor.pull (Run.pagesOf (σ := Client τ) .routeApplications [(.routeId, routeId)]) fuel
      ⟨[], some number⟩) fun c es found => found = none → c.Bare IsNoError routeId number es := by
  induction fuel generalizing number with
  | zero => exact Finds.throw .stalled
  | succ fuel ih =>
    rw [Cursor.pull]
    refine ((page_finds _ _ number).bind (Q := fun p c es found => found = none →
      p.items = [] ∧ if p.hasNext then c.Bare IsNoError routeId (number + 1) es else es = [])
      fun p => ?_).imp ?_
    · unfold Cursor.ofPage
      cases hitems : p.items with
      | cons x rest =>
        rw [Cursor.pull]
        exact Finds.pure fun c h => absurd h (Option.some_ne_none _)
      | nil =>
        split
        · exact (ih (number + 1)).imp fun c es found h hnone => ⟨rfl, h hnone⟩
        · rw [Cursor.pull]
          exact Finds.pure fun c _ => ⟨rfl, rfl⟩
    · rintro c _ found ⟨p, _, later, rfl, ⟨e, rfl, hpage⟩, hlater⟩ hnone
      obtain ⟨hitems, hrest⟩ := hlater hnone
      have hnumber := hpage.page_eq
      have hshows : c.ShowsNone IsNoError routeId number p.totalPages e := hpage.showsNone hitems
      have hnext : p.hasNext = true ↔ (number : Int) < p.totalPages := by
        rw [Page.hasNext, hnumber, decide_eq_true_iff]
      split at hrest
      · exact .more hshows (hnext.mp ‹_›) hrest.of_conversed
      · rw [hrest]
        exact .last hshows (Int.not_lt.mp fun hlt => absurd (hnext.mpr hlt) ‹_›)

theorem listFirst_converses (routeId : String) :
    Converses (Run.listFirst (σ := Client τ) .routeApplications [(.routeId, routeId)])
      fun c es outcome => (∀ e ∈ es, e.request.method = "GET") ∧
        (outcome = .ok none → c.Bare IsNoError routeId 1 es) := by
  have hgets : OnlyGets (Run.listFirst (σ := Client τ) .routeApplications [(.routeId, routeId)]) :=
    onlyGets_composed.listFirst onlyGets_page _ _
  have hfinds : Finds (Run.listFirst (σ := Client τ) .routeApplications [(.routeId, routeId)])
      fun c es first => first = none → c.Bare IsNoError routeId 1 es := by
    refine Converses.get_bind fun w => ?_
    refine ((pull_finds routeId w.patience 1).bind fun found =>
      Finds.pure_exact (found.map (·.1))).imp ?_
    rintro c _ first ⟨found, es, _, rfl, hbare, rfl, rfl⟩ hnone
    rw [List.append_nil]
    exact hbare (Option.map_eq_none_iff.mp hnone)
  exact (hgets.and hfinds).imp fun c es outcome h => ⟨h.1, fun hnone => h.2 none hnone rfl⟩

end Applications

section Sweep

variable {routes routes' : List Route}

/-- An entry of two lists in a row is in the first or in the second. -/
theorem append_eq_split {α : Type} {first second before later : List α} {a : α}
    (h : first ++ second = before ++ a :: later) :
    (∃ mid, first = before ++ a :: mid) ∨
      ∃ mid, before = first ++ mid ∧ second = mid ++ a :: later := by
  rcases List.append_eq_append_iff.mp h with ⟨mid, hbefore, hsecond⟩ | ⟨mid, hfirst, hlater⟩
  · exact .inr ⟨mid, hbefore, hsecond⟩
  · cases mid with
    | nil => exact .inr ⟨[], by rw [hfirst, List.append_nil, List.append_nil], hlater.symm⟩
    | cons b mid =>
      obtain ⟨rfl, -⟩ := List.cons.inj hlater
      exact .inl ⟨mid, hfirst⟩

/-- Every deletion among some exchanges is of one of the routes that serve no instance, right after
all of its applications were listed and there were none. -/
def Justified (c : Client τ) (routes : List Route) (es : List (Exchange τ)) : Prop :=
  ∀ before e later, es = before ++ e :: later → e.request.method = "DELETE" →
    ∃ r ∈ routes, (r.serviceInstanceId.getD "").isEmpty = true ∧ c.AsksDeletion r.id e.request ∧
      ∃ earlier pages, before = earlier ++ pages ∧ c.Bare IsNoError r.id 1 pages

theorem notMem_gets (h : ∀ e ∈ es, e.request.method = "GET") (hdelete : e.request.method = "DELETE") :
    e ∉ es := by
  intro he
  rw [h e he] at hdelete
  exact absurd hdelete (by decide)

theorem not_split_gets (h : ∀ e ∈ es, e.request.method = "GET") (hdelete : e.request.method = "DELETE") :
    es ≠ before ++ e :: later := by
  rintro rfl
  exact notMem_gets h hdelete (List.mem_append_right _ List.mem_cons_self)

theorem Justified.of_gets (h : ∀ e ∈ es, e.request.method = "GET") : c.Justified routes es :=
  fun _ _ _ hsplit hdelete => absurd hsplit (not_split_gets h hdelete)

theorem Justified.mono (h : c.Justified routes es) (hsub : routes ⊆ routes') :
    c.Justified routes' es := by
  intro before e later hes hdelete
  obtain ⟨r, hr, hrest⟩ := h before e later hes hdelete
  exact ⟨r, hsub hr, hrest⟩

/-- A deletion after some exchanges still comes right after the pages before it. -/
theorem Justified.append {es' : List (Exchange τ)} (h : c.Justified routes es)
    (h' : (c.conversed es).Justified routes es') : c.Justified routes (es ++ es') := by
  intro before e later hsplit hdelete
  rcases append_eq_split hsplit with ⟨mid, hes⟩ | ⟨mid, rfl, hes'⟩
  · exact h before e mid hes hdelete
  · obtain ⟨r, hr, hserves, hasks, earlier, pages, rfl, hbare⟩ := h' mid e later hes' hdelete
    exact ⟨r, hr, hserves, hasks, es ++ earlier, pages, (List.append_assoc _ _ _).symm,
      hbare.of_conversed⟩

/-- A deletion among requests that change nothing, right after the pages that speak for it. -/
theorem Justified.deletion {pages : List (Exchange τ)} {r : Route}
    (hunserved : (r.serviceInstanceId.getD "").isEmpty = true) (hbare : c.Bare IsNoError r.id 1 pages)
    (hpages : ∀ e ∈ pages, e.request.method = "GET") (hasks : c.AsksDeletion r.id e.request)
    (hlater : ∀ e ∈ later, e.request.method = "GET") :
    c.Justified [r] (pages ++ e :: later) := by
  intro before e' rest hsplit hdelete
  obtain ⟨rfl, rfl, -⟩ := (List.append_cons_inj_of_notMem (notMem_gets hpages hdelete)
    (notMem_gets hlater hdelete)).mp hsplit
  exact ⟨r, List.mem_singleton_self r, hunserved, hasks, [], pages, rfl, hbare⟩

theorem onlyGets_emit (event : Event) : OnlyGets (Run.emit (σ := Client τ) (τ := τ) event) :=
  onlyGets_quiet fun _ => rfl

/-- An operation that deletes nothing but what is justified. -/
def Justifies {α : Type} (routes : List Route) (x : Run (Client τ) τ α) : Prop :=
  Converses x fun c es _ => c.Justified routes es

theorem OnlyGets.justifies {α : Type} {x : Run (Client τ) τ α} (h : OnlyGets x)
    (routes : List Route) : Justifies routes x :=
  Converses.imp h fun _ _ _ hgets => Justified.of_gets hgets

theorem justifies_composed (routes : List Route) : Composed (Justifies (τ := τ) routes) where
  pure a := (onlyGets_composed.pure a).justifies routes
  throw f := (onlyGets_composed.throw f).justifies routes
  bind hx hf := by
    refine (Converses.bind hx hf).imp fun c es outcome hes => ?_
    rcases hes with ⟨_, hbefore, -⟩ | ⟨_, before, later, rfl, hbefore, hlater⟩
    · exact hbefore
    · exact hbefore.append hlater
  attempt hx := hx.attempt.imp fun _ _ _ ⟨_, hes, _⟩ => hes
  surroundings _ h := Converses.get_bind h

theorem requireSpace_converses (o : Orchestrator τ) :
    Converses (o.requireSpace (σ := Client τ)) fun _ es outcome =>
      es = [] ∧ ∀ spaceId, outcome = .ok spaceId → o.spaceId = some spaceId ∧ spaceId ≠ "" := by
  unfold Orchestrator.requireSpace
  cases hspace : o.spaceId with
  | none => exact Converses.throw fun c => ⟨rfl, fun _ h => nomatch h⟩
  | some spaceId =>
    dsimp only
    split
    · exact Converses.throw fun c => ⟨rfl, fun _ h => nomatch h⟩
    · rename_i hempty
      refine Converses.pure fun c => ⟨rfl, ?_⟩
      rintro _ ⟨⟩
      exact ⟨rfl, fun h => hempty (String.isEmpty_iff.mpr h)⟩

/-- Whatever is deleted of the routes that a space's listing shows was listed on a page of it. -/
theorem listed_converses {α : Type} (spaceId : String) {sweep : List Route → Run (Client τ) τ α}
    (hsweep : ∀ routes, Justifies routes (sweep routes)) :
    Converses (Run.listAll .spaceRoutes [(.spaceId, spaceId)] >>= sweep) fun c es _ =>
      ∀ before e later, es = before ++ e :: later → e.request.method = "DELETE" →
        c.Evidenced IsNoError spaceId before e.request := by
  refine (Converses.bind (listAll_converses .spaceRoutes [(.spaceId, spaceId)])
    (Q := fun routes c es _ => c.Justified routes es) hsweep).imp ?_
  intro c es outcome h before e later hsplit hdelete
  rcases h with ⟨f, ⟨hgets, -⟩, -⟩ | ⟨routes, listing, rest, rfl, ⟨hgets, hshown⟩, hjust⟩
  · exact absurd hsplit (not_split_gets hgets hdelete)
  · rcases append_eq_split hsplit with ⟨mid, hlisting⟩ | ⟨mid, rfl, hrest⟩
    · exact absurd hlisting (not_split_gets hgets hdelete)
    · obtain ⟨r, hr, hunserved, hasks, earlier, pages, rfl, hbare⟩ := hjust mid e later hrest hdelete
      obtain ⟨shown, hmem, hshows⟩ := hshown routes rfl r hr
      exact ⟨r.id, listing ++ earlier, pages, (List.append_assoc _ _ _).symm, hasks,
        ⟨shown, List.mem_append_left _ hmem, hshows.listsUnserved hunserved⟩, hbare.of_conversed⟩

variable [Add τ] [Sub τ] [OfNat τ 0] [LE τ] [LT τ] [DecidableLE τ] [DecidableLT τ]
  (o : Orchestrator τ)

/-- The request for the deletion comes first, and only looks at its job come after. -/
theorem deleteRoute_converses (r : Route) :
    Converses (o.deleteRoute (σ := Client τ) r) fun c es _ =>
      (∀ e ∈ es, e.request.method = "GET") ∨ ∃ e later, es = e :: later ∧
        c.AsksDeletion r.id e.request ∧ ∀ e ∈ later, e.request.method = "GET" := by
  have hwait (job : Job) : OnlyGets (do
      let _ ← o.poller.awaitJob (σ := Client τ) job
      Run.emit (.onRoute "route.deleted" r)) :=
    onlyGets_composed.bind (onlyGets_awaitJob o.poller job) fun _ => onlyGets_emit _
  refine (Converses.bind (Converses.of_puts (deleteRoute_puts r.id)) hwait).imp ?_
  rintro c es outcome (⟨f, hput, -⟩ | ⟨job, before, later, rfl, hput, hlater⟩)
  · rcases hput with ⟨rfl, -⟩ | ⟨e, rfl, hasks, -⟩
    · exact .inl fun e he => absurd he List.not_mem_nil
    · exact .inr ⟨e, [], rfl, hasks, fun e he => absurd he List.not_mem_nil⟩
  · rcases hput with ⟨-, f, hfailed⟩ | ⟨e, rfl, hasks, -⟩
    · cases hfailed
    · exact .inr ⟨e, later, rfl, hasks, hlater⟩

theorem deleteUnused_justifies {r : Route}
    (hunserved : (r.serviceInstanceId.getD "").isEmpty = true) :
    Justifies [r] (o.deleteUnused (σ := Client τ) r) := by
  refine (Converses.bind (listFirst_converses r.id) (Q := fun found c es _ =>
    (∀ e ∈ es, e.request.method = "GET") ∨ found = none ∧ ∃ e later, es = e :: later ∧
      c.AsksDeletion r.id e.request ∧ ∀ e ∈ later, e.request.method = "GET") fun found => ?_).imp ?_
  · cases found with
    | some app =>
      have hskip : OnlyGets (do
          Run.emit (σ := Client τ) (.onRoute "route.orphan_skipped" r)
          return false) :=
        onlyGets_composed.bind (onlyGets_emit _) fun _ => onlyGets_composed.pure false
      exact hskip.imp fun c es _ hgets => .inl hgets
    | none =>
      refine (Converses.bind (deleteRoute_converses o r) fun _ => onlyGets_composed.pure true).imp ?_
      rintro c es outcome (⟨f, hdelete, -⟩ | ⟨_, before, later, rfl, hdelete, hlater⟩)
      · exact hdelete.imp_right fun h => ⟨rfl, h⟩
      · rcases hdelete with hgets | ⟨e, rest, rfl, hasks, hrest⟩
        · exact .inl fun e he => (List.mem_append.mp he).elim (hgets e) (hlater e)
        · refine .inr ⟨rfl, e, rest ++ later, rfl, hasks, fun e he => ?_⟩
          exact (List.mem_append.mp he).elim (hrest e) (hlater e)
  · rintro c es outcome (⟨f, ⟨hgets, -⟩, -⟩ | ⟨found, before, later, rfl, ⟨hgets, hbare⟩, hnext⟩)
    · exact Justified.of_gets hgets
    · rcases hnext with hlater | ⟨rfl, e, rest, rfl, hasks, hrest⟩
      · exact Justified.of_gets fun e he => (List.mem_append.mp he).elim (hgets e) (hlater e)
      · exact Justified.deletion hunserved (hbare rfl) hgets hasks hrest

theorem sweepRoute_justifies (sofar : Orchestrator.Sweep τ) (r : Route) :
    Justifies [r] (o.sweepRoute (σ := Client τ) sofar r) := by
  have composed := justifies_composed (τ := τ) [r]
  unfold Orchestrator.sweepRoute
  split
  · rename_i hunserved
    refine composed.bind (composed.attempt (deleteUnused_justifies o hunserved)) fun tried => ?_
    split
    · exact composed.pure _
    · exact composed.pure _
    · split
      · exact composed.pure _
      · exact composed.throw _
  · exact composed.bind ((onlyGets_emit _).justifies _) fun _ => composed.pure _

theorem sweep_justifies (sofar : Orchestrator.Sweep τ) (routes : List Route) :
    Justifies routes (routes.foldlM (o.sweepRoute (σ := Client τ)) sofar) := by
  induction routes generalizing sofar with
  | nil => exact (justifies_composed []).pure sofar
  | cons r routes ih =>
    rw [List.foldlM_cons]
    refine (justifies_composed (r :: routes)).bind ?_ fun next => ?_
    · exact (sweepRoute_justifies o sofar r).imp fun c es _ h =>
        h.mono (List.cons_subset_cons r (List.nil_subset routes))
    · exact (ih next).imp fun c es _ h => h.mono (List.subset_cons_self r routes)

theorem deleteOrphanedRoutes_converses :
    Converses (o.deleteOrphanedRoutes (σ := Client τ)) fun c es _ =>
      ∀ before e later, es = before ++ e :: later → e.request.method = "DELETE" →
        ∃ spaceId, o.spaceId = some spaceId ∧ spaceId ≠ "" ∧
          c.Evidenced IsNoError spaceId before e.request := by
  have hsweep (routes : List Route) : Justifies routes (do
      let sweep ← routes.foldlM (o.sweepRoute (σ := Client τ)) ⟨[], []⟩
      if sweep.failures.isEmpty then return sweep.deleted
      throw (.orphans sweep.failures)) := by
    have composed := justifies_composed (τ := τ) routes
    refine composed.bind (sweep_justifies o ⟨[], []⟩ routes) fun sweep => ?_
    split
    · exact composed.pure _
    · exact composed.throw _
  have hrequire := requireSpace_converses o
  refine (Converses.bind hrequire fun spaceId => listed_converses spaceId hsweep).imp ?_
  rintro c es outcome (⟨f, ⟨rfl, -⟩, -⟩ | ⟨spaceId, _, rest, rfl, ⟨rfl, hspace⟩, hevidence⟩)
    before e later hsplit hdelete
  · cases before <;> cases hsplit
  · obtain ⟨hid, hne⟩ := hspace spaceId rfl
    rw [conversed_nil] at hevidence
    exact ⟨spaceId, hid, hne, hevidence before e later hsplit hdelete⟩

/-- A sweep asks for the deletion of no route but of one that a page of the space's routes listed
without a service instance, and only after all pages of the route's applications, up to the one that
was the last by its own word, were read and had none. Whatever was read had no error status, and where
no answer has a status that is neither good nor an error, it had a good one. -/
theorem deletions_evidenced (w : World (Client τ) τ) :
    let c := w.platform
    let v := (o.deleteOrphanedRoutes.run w).2
    let talk := transcript c v.platform
    v.platform = c.conversed talk ∧
      ∀ before e later, talk = before ++ e :: later → e.request.method = "DELETE" →
        ∃ spaceId, o.spaceId = some spaceId ∧ spaceId ≠ "" ∧
          c.Evidenced IsNoError spaceId before e.request ∧
          ((∀ status body, .response status body ∈ c.answers →
              IsGood status ∨ 400 ≤ status ∧ status ≤ 599) →
            c.Evidenced IsGood spaceId before e.request) := by
  intro c v talk
  obtain ⟨es, hafter, hanswered, hevidence⟩ := deleteOrphanedRoutes_converses o w
  have htalk : talk = es := by
    change transcript c v.platform = es
    rw [show v.platform = c.conversed es from hafter]
    exact transcript_conversed hanswered
  rw [htalk]
  refine ⟨hafter, fun before e later hsplit hdelete => ?_⟩
  obtain ⟨spaceId, hspace, hne, hbefore⟩ := hevidence before e later hsplit hdelete
  refine ⟨spaceId, hspace, hne, hbefore, fun hstatuses => hbefore.imp ?_⟩
  intro e' he' status body hanswer hnoError
  have hmem : e' ∈ es := by
    rw [hsplit]
    exact List.mem_append_left _ he'
  rcases hstatuses status body (hanswered.mem_answers hmem hanswer) with hgood | herror
  · exact hgood
  · unfold IsNoError at hnoError
    omega

end Sweep

/-- The last page of a route's applications was answered. -/
theorem Bare.exists_last (h : c.Bare fine routeId number es) :
    ∃ front e status body, es = front ++ [e] ∧ e.answer = .response status body ∧ fine status := by
  induction h with
  | last hnone _ =>
    obtain ⟨-, v, ⟨status, body, hanswer, hfine, -⟩, -⟩ := hnone
    exact ⟨[], _, status, body, rfl, hanswer, hfine⟩
  | more _ _ _ ih =>
    obtain ⟨front, e, status, body, rfl, hlast⟩ := ih
    exact ⟨_ :: front, e, status, body, rfl, hlast⟩

/-- A world whose server tells of a space with one route, answers for the route's applications with
the given status and body, and then tells that the route's deletion is finished. -/
def emptying (status : Nat) (applications : String) : World (Client ℚ) ℚ where
  platform :=
    { base := ⟨"https", "", "api.test", none, "/", none, none⟩
      pageSize := 2
      headers := [("Accept", "application/json")]
      answers :=
        [.response 200 ("\x7b\"resources\":[\x7b\"metadata\":\x7b\"guid\":\"route-1\"\x7d," ++
            "\"entity\":\x7b\"domain_guid\":\"domain-1\"\x7d\x7d],\"total_pages\":1\x7d"),
          .response status applications,
          .response 200 ("\x7b\"metadata\":\x7b\"guid\":\"job-1\"\x7d," ++
            "\"entity\":\x7b\"status\":\"finished\"\x7d\x7d")]
      silence := .unreachable "" }
  clock := 0
  fetchCost := 0
  cancelAt := none
  sleeps := []
  events := []
  patience := 3

def emptied : Orchestrator ℚ := ⟨"org-1", some "space-1", ⟨1, 5⟩⟩

/-- All that is exchanged in a sweep. -/
def sweepTalk (o : Orchestrator ℚ) (w : World (Client ℚ) ℚ) : List (Exchange ℚ) :=
  transcript w.platform (o.deleteOrphanedRoutes.run w).2.platform

/-- The method of a request and the status of its answer. -/
def outline (e : Exchange τ) : String × Nat :=
  (e.request.method, match e.answer with
    | .response status _ => status
    | .failure _ => 0)

theorem exists_split_of_map {α β : Type} {f : α → β} {l : List α} {first second : List β} {b : β}
    (h : l.map f = first ++ b :: second) :
    ∃ before a later, l = before ++ a :: later ∧ before.map f = first ∧ f a = b := by
  obtain ⟨before, rest, rfl, hbefore, hrest⟩ := List.map_eq_append_iff.mp h
  obtain ⟨a, later, rfl, ha, -⟩ := List.map_eq_cons_iff.mp hrest
  exact ⟨before, a, later, rfl, hbefore, ha⟩

theorem deletions_evidenced_emptied :
    ∃ before e later, sweepTalk emptied (emptying 200 "") = before ++ e :: later ∧
      e.request.method = "DELETE" ∧
      (emptying 200 "").platform.Evidenced IsGood "space-1" before e.request := by
  have htalk : (sweepTalk emptied (emptying 200 "")).map outline =
      [("GET", 200), ("GET", 200)] ++ ("DELETE", 200) :: [] := by decide +kernel
  obtain ⟨before, e, later, hsplit, -, houtline⟩ := exists_split_of_map htalk
  have hdelete : e.request.method = "DELETE" := congrArg Prod.fst houtline
  have hgood : ∀ status body, Answer.response status body ∈ (emptying 200 "").platform.answers →
      IsGood status ∨ 400 ≤ status ∧ status ≤ 599 := by
    intro status body hanswer
    simp only [emptying, List.mem_cons, Answer.response.injEq, List.not_mem_nil, or_false] at hanswer
    obtain ⟨rfl, -⟩ | ⟨rfl, -⟩ | ⟨rfl, -⟩ := hanswer
    all_goals exact .inl (by decide)
  obtain ⟨-, hall⟩ := deletions_evidenced emptied (emptying 200 "")
  obtain ⟨spaceId, hspace, -, -, hevidence⟩ := hall before e later hsplit hdelete
  cases hspace
  exact ⟨before, e, later, hsplit, hdelete, hevidence hgood⟩

/-- An answer that is an error in its body but not in its status is read as a page without any
applications, and the route is deleted. -/
theorem deletion_after_moved :
    let w := emptying 302
      "\x7b\"code\":1,\"description\":\"moved\",\"error_code\":\"CF-Moved\"\x7d"
    ∃ before e later, sweepTalk emptied w = before ++ e :: later ∧ e.request.method = "DELETE" ∧
      ∀ spaceId, ¬ w.platform.Evidenced IsGood spaceId before e.request := by
  intro w
  have htalk : (sweepTalk emptied w).map outline =
      [("GET", 200), ("GET", 302)] ++ ("DELETE", 200) :: [] := by decide +kernel
  obtain ⟨before, e, later, hsplit, hbefore, houtline⟩ := exists_split_of_map htalk
  refine ⟨before, e, later, hsplit, congrArg Prod.fst houtline, fun spaceId hevidence => ?_⟩
  obtain ⟨routeId, earlier, pages, rfl, -, -, hbare⟩ := hevidence
  obtain ⟨front, last, status, body, rfl, hanswer, hgood⟩ := hbare.exists_last
  rw [← List.append_assoc, List.map_append, List.map_singleton] at hbefore
  have hlast := congrArg List.getLast? hbefore
  rw [List.getLast?_concat] at hlast
  have hlast : outline last = ("GET", 302) := Option.some.inj hlast
  rw [outline, hanswer] at hlast
  have hstatus : status = 302 := congrArg Prod.snd hlast
  unfold IsGood at hgood
  omega

end Client

end PlatformRoutes.Http
