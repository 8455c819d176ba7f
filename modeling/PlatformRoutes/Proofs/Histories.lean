import Mathlib.Data.Multiset.AddSub
import PlatformRoutes.Proofs.Reachable

namespace PlatformRoutes

/-- One thing that is done to a platform in memory: it is filled with something, or a request is put
to it. -/
inductive Move (τ : Type) where
  | seed (seed : Seed τ)
  | ask (q : Request)

/-- The id that is given out for a kind of thing while some number is the next one. -/
def idText (stem : String) (number : ℕ) : String := stem ++ "-" ++ toString number

theorem isBlank_of_isDigit {c : Char} (h : c.isDigit = true) : Text.isBlank c = false := by
  have hrange : 48 ≤ c.toNat ∧ c.toNat ≤ 57 := by
    simpa [Char.isDigit, UInt32.le_iff_toNat_le] using h
  simp only [Text.isBlank, Bool.or_eq_false_iff, Bool.and_eq_false_iff, decide_eq_false_iff_not,
    beq_eq_false_iff_ne]
  omega

theorem isDigit_of_mem {number : ℕ} {c : Char} (h : c ∈ (toString number).toList) :
    c.isDigit = true :=
  Nat.isDigit_of_mem_toDigits (by omega) (by omega) (Nat.toList_repr ▸ h)

/-- There is nothing to strip from an id. -/
theorem strip_idText {stem : String} {c : Char} {rest : List Char} (hstem : stem.toList = c :: rest)
    (hc : Text.isBlank c = false) (number : ℕ) :
    Text.strip (idText stem number) = idText stem number := by
  have hlist : (idText stem number).toList = c :: (rest ++ '-' :: (toString number).toList) := by
    rw [idText, String.toList_append, String.toList_append, hstem, List.append_assoc]
    rfl
  have htrimmed : Text.Trimmed Text.isBlank (idText stem number).toList := by
    rw [hlist]
    refine ⟨?_, fun d hd => ?_⟩
    · rintro _ ⟨⟩
      exact hc
    · rw [← List.cons_append, List.getLast?_append_of_ne_nil _ (List.cons_ne_nil _ _)] at hd
      rcases List.mem_cons.mp (List.mem_of_getLast? hd) with rfl | hdigit
      · decide
      · exact isBlank_of_isDigit (isDigit_of_mem hdigit)
  rw [Text.strip, htrimmed.trim_eq, String.ofList_toList]

/-- Read from its end, an id is the digits of its number up to the first dash. -/
theorem takeWhile_idText (stem : String) (number : ℕ) :
    (idText stem number).toList.reverse.takeWhile Char.isDigit =
      (toString number).toList.reverse := by
  have hdigits : ∀ c ∈ (toString number).toList.reverse, c.isDigit = true := by
    intro c hc
    exact isDigit_of_mem (List.mem_reverse.mp hc)
  rw [idText, String.toList_append, String.toList_append, List.reverse_append, List.reverse_append,
    List.takeWhile_append_of_pos hdigits]
  exact List.append_nil _

/-- No two ids are given out under one number, whatever they are for. -/
theorem number_of_idText {stem stem' : String} {m n : ℕ} (h : idText stem m = idText stem' n) :
    m = n := by
  have hdigits : (toString m).toList.reverse = (toString n).toList.reverse := by
    rw [← takeWhile_idText stem, h, takeWhile_idText]
  exact Nat.repr_inj.mp (String.toList_inj.mp (List.reverse_inj.mp hdigits))

/-- The keys of all that a register holds. -/
def Register.keys {α : Type} [Keyed α] (r : Register α) : Multiset String := r.items.map Keyed.key

namespace Register

variable {α : Type} [Keyed α]

theorem keys_putInto_le (a : α) : ∀ l : List α, ((putInto a l).map Keyed.key : Multiset String) ≤
    (l.map Keyed.key : Multiset String) + {Keyed.key a}
  | [] => le_rfl
  | b :: rest => by
    unfold putInto
    split
    · rename_i same
      rw [List.map_cons, ← eq_of_beq same]
      exact Multiset.le_add_right _ _
    · exact Multiset.cons_le_cons _ (keys_putInto_le a rest)

theorem keys_put_le (r : Register α) (a : α) : (r.put a).keys ≤ r.keys + {Keyed.key a} :=
  keys_putInto_le a r.items

theorem keys_erase_le (r : Register α) (key : String) : (r.erase key).keys ≤ r.keys :=
  Multiset.coe_le.mpr ((List.filter_sublist.map _).subperm)

end Register

namespace Store

variable {τ β : Type} {s : Store τ}

def moved (s : Store τ) : Move τ → Store τ
  | .seed seed => s.seeded seed
  | .ask q => q.after s

/-- The platform after some moves. -/
def history (s : Store τ) (moves : List (Move τ)) : Store τ := moves.foldl moved s

theorem history_append (s : Store τ) (before later : List (Move τ)) :
    s.history (before ++ later) = (s.history before).history later := List.foldl_append

theorem history_concat (s : Store τ) (moves : List (Move τ)) (m : Move τ) :
    s.history (moves ++ [m]) = (s.history moves).moved m := s.history_append moves [m]

theorem moved_deleteRoute (s : Store τ) (routeId : String) :
    s.moved (.ask (.deleteRoute routeId)) = ((deleteRoute routeId).run s).2 := run_discarded s

theorem moved_getJob (s : Store τ) (jobId : String) :
    s.moved (.ask (.getJob jobId)) = ((getJob jobId).run s).2 := run_discarded s

/-- The states that can be reached are those that a history leads to. -/
theorem reachable_iff : s.Reachable ↔ ∃ pageSize loose s₀ moves,
    (new? pageSize loose : Except (Failure τ) (Store τ)) = .ok s₀ ∧ s = s₀.history moves := by
  constructor
  · intro h
    induction h with
    | new pageSize loose s h => exact ⟨pageSize, loose, s, [], h, rfl⟩
    | seeded s seed _ ih =>
      obtain ⟨pageSize, loose, s₀, moves, hnew, rfl⟩ := ih
      exact ⟨pageSize, loose, s₀, moves ++ [.seed seed], hnew, by rw [history_concat]; rfl⟩
    | asked s q _ ih =>
      obtain ⟨pageSize, loose, s₀, moves, hnew, rfl⟩ := ih
      exact ⟨pageSize, loose, s₀, moves ++ [.ask q], hnew, by rw [history_concat]; rfl⟩
  · rintro ⟨pageSize, loose, s₀, moves, hnew, rfl⟩
    induction moves using List.reverseRecOn with
    | nil => exact .new pageSize loose s₀ hnew
    | append_singleton moves m ih =>
      rw [history_concat]
      cases m with
      | seed seed => exact .seeded _ seed ih
      | ask q => exact .asked _ q ih

/-- The route that a move adds. -/
def addition? (s : Store τ) : Move τ → Option Route
  | .seed (.route domainId spaceId host path service) =>
    ((addRoute domainId spaceId host path service).run s).1.toOption
  | .ask (.createRoute domainId spaceId host path) =>
    ((createRoute domainId spaceId host path).run s).1.toOption
  | _ => none

/-- The job that a move starts, with the route that the job takes away. -/
def started? (s : Store τ) : Move τ → Option (String × String)
  | .ask (.deleteRoute routeId) =>
    ((deleteRoute routeId).run s).1.toOption.map fun job => (job.id, routeId)
  | _ => none

/-- The id that a move gives to a new record. -/
def given? (s : Store τ) : Move τ → Option String
  | .seed (.organization name) => ((addOrganization name).run s).1.toOption.map Ref.id
  | .seed (.space organizationId name) => ((addSpace organizationId name).run s).1.toOption.map Ref.id
  | .seed (.privateDomain organizationId name) =>
    ((addPrivateDomain organizationId name).run s).1.toOption.map Domain.id
  | .seed (.sharedDomain name) => ((addSharedDomain name).run s).1.toOption.map Domain.id
  | .seed (.application spaceId name) => ((addApplication spaceId name).run s).1.toOption.map Ref.id
  | m => ((s.addition? m).map Route.id).or ((s.started? m).map Prod.fst)

theorem id_organization (name : String) (number : ℕ) :
    (Ref.of (idText "org" number) name).id = idText "org" number :=
  strip_idText (show "org".toList = 'o' :: ['r', 'g'] from rfl) rfl number

theorem id_space (name : String) (number : ℕ) :
    (Ref.of (idText "space" number) name).id = idText "space" number :=
  strip_idText (show "space".toList = 's' :: ['p', 'a', 'c', 'e'] from rfl) rfl number

theorem id_application (name : String) (number : ℕ) :
    (Ref.of (idText "app" number) name).id = idText "app" number :=
  strip_idText (show "app".toList = 'a' :: ['p', 'p'] from rfl) rfl number

theorem given_organization (s : Store τ) (name : String) :
    s.given? (.seed (.organization name)) = some (idText "org" s.nextId) :=
  congrArg some (id_organization name s.nextId)

theorem given_space (s : Store τ) (organizationId name : String) :
    s.given? (.seed (.space organizationId name)) = some (idText "space" s.nextId) :=
  congrArg some (id_space name s.nextId)

theorem given_application (s : Store τ) (spaceId name : String) :
    s.given? (.seed (.application spaceId name)) = some (idText "app" s.nextId) :=
  congrArg some (id_application name s.nextId)

/-- What each move of a history comes to, as far as it comes to anything. -/
def along (f : Store τ → Move τ → Option β) (s : Store τ) : List (Move τ) → List β
  | [] => []
  | m :: moves => (f s m).toList ++ along f (s.moved m) moves

theorem along_append (f : Store τ → Move τ → Option β) (s : Store τ) (before later : List (Move τ)) :
    along f s (before ++ later) = along f s before ++ along f (s.history before) later := by
  induction before generalizing s with
  | nil => rfl
  | cons m before ih => rw [List.cons_append, along, along, ih, List.append_assoc]; rfl

theorem along_concat (f : Store τ → Move τ → Option β) (s : Store τ) (moves : List (Move τ))
    (m : Move τ) : along f s (moves ++ [m]) = along f s moves ++ (f (s.history moves) m).toList := by
  rw [along_append, along, along, List.append_nil]

/-- What a move does to the routes and the jobs of a platform. -/
inductive Effect (s : Store τ) (m : Move τ) : Prop where
  | idle (added : s.addition? m = none) (started : s.started? m = none)
      (routes : (s.moved m).routes = s.routes) (jobs : (s.moved m).jobs = s.jobs)
      (next : s.nextId ≤ (s.moved m).nextId)
  | adds (r : Route) (added : s.addition? m = some r) (started : s.started? m = none)
      (id : r.id = routeName s.nextId)
      (spelled : ∃ host path, r.host = normalSegment host ∧ r.path = normalPath path)
      (routes : (s.moved m).routes = s.routes.put r) (jobs : (s.moved m).jobs = s.jobs)
      (next : (s.moved m).nextId = s.nextId + 1)
  | scripts (t : JobTrack) (added : s.addition? m = none) (started : s.started? m = none)
      (route : t.route = (s.jobs.find? t.id).bind JobTrack.route)
      (routes : (s.moved m).routes = s.routes) (jobs : (s.moved m).jobs = s.jobs.put t)
      (next : (s.moved m).nextId = s.nextId)
  | deletes (routeId : String) (move : m = .ask (.deleteRoute routeId))
      (stored : s.routes.contains routeId = true) (moved : s.moved m = s.deleting routeId)
  | polls (jobId : String) (t : JobTrack) (move : m = .ask (.getJob jobId))
      (found : s.jobs.find? jobId = some t)
      (moved : s.moved m = ({ s with calls := s.calls ++ [.getJob jobId] } : Store τ).look t)

/-- What adding a route does, in a state that differs from the one before the move in nothing that
matters here. -/
theorem effect_addRoute {m : Move τ} {domainId spaceId : String} {host path service : Option String}
    {t : Store τ} (hroutes : t.routes = s.routes) (hjobs : t.jobs = s.jobs)
    (hnext : t.nextId = s.nextId) (hstarted : s.started? m = none)
    (hadded : s.addition? m = ((addRoute domainId spaceId host path service).run t).1.toOption)
    (hmoved : s.moved m = ((addRoute domainId spaceId host path service).run t).2) :
    s.Effect m := by
  rw [run_addRoute] at hadded hmoved
  by_cases hempty : domainId.isEmpty = true
  · rw [if_pos hempty] at hadded hmoved
    refine .idle hadded hstarted ?_ ?_ ?_
    · rw [hmoved]
      exact hroutes
    · rw [hmoved]
      exact hjobs
    · rw [hmoved]
      exact hnext ▸ Nat.le_succ _
  · rw [if_neg hempty] at hadded hmoved
    refine .adds _ hadded hstarted ?_ ⟨host, path, rfl, rfl⟩ ?_ ?_ ?_
    · exact congrArg routeName hnext
    · rw [hmoved, ← hroutes]
    · rw [hmoved]
      exact hjobs
    · rw [hmoved]
      exact congrArg (· + 1) hnext

theorem effect_seed (s : Store τ) (seed : Seed τ) : s.Effect (.seed seed) := by
  cases seed with
  | organization | space | privateDomain | sharedDomain | application | refused =>
    exact .idle rfl rfl rfl rfl (Nat.le_succ _)
  | listFailure => exact .idle rfl rfl rfl rfl (Nat.le_refl _)
  | route => exact effect_addRoute (t := s) rfl rfl rfl rfl rfl rfl
  | job jobId statuses error =>
    cases statuses with
    | nil => exact .idle rfl rfl rfl rfl (Nat.le_refl _)
    | cons status statuses => exact .scripts _ rfl rfl rfl rfl rfl rfl
  | deletion routeId statuses error =>
    cases statuses <;> exact .idle rfl rfl rfl rfl (Nat.le_refl _)

/-- A route is created in the place of none, on a domain that is known. -/
theorem effect_createRoute (s : Store τ) (domainId spaceId : String) (host path : Option String) :
    s.Effect (.ask (.createRoute domainId spaceId host path)) := by
  have hmoved : s.moved (.ask (.createRoute domainId spaceId host path)) =
      ((createRoute domainId spaceId host path).run s).2 := run_discarded s
  have hadded : s.addition? (.ask (.createRoute domainId spaceId host path)) =
      ((createRoute domainId spaceId host path).run s).1.toOption := rfl
  rw [run_createRoute] at hmoved hadded
  dsimp only at hmoved hadded
  split at hmoved
  · rename_i hunknown
    rw [if_pos hunknown] at hadded
    refine .idle hadded rfl ?_ ?_ ?_ <;> rw [hmoved]
  · rename_i hknown
    rw [if_neg hknown] at hadded
    split at hmoved
    · rename_i htaken
      rw [if_pos htaken] at hadded
      refine .idle hadded rfl ?_ ?_ ?_ <;> rw [hmoved]
    · rename_i hfree
      rw [if_neg hfree] at hadded
      exact effect_addRoute
        (t := { s with calls := s.calls ++ [.createRoute domainId spaceId host path] }) rfl rfl rfl rfl
        hadded hmoved

theorem effect_deleteRoute (s : Store τ) (routeId : String) :
    s.Effect (.ask (.deleteRoute routeId)) := by
  have hmoved := s.moved_deleteRoute routeId
  cases hstored : s.routes.contains routeId with
  | true =>
    rw [run_deleteRoute hstored] at hmoved
    exact .deletes routeId rfl hstored hmoved
  | false =>
    have hstarted : s.started? (.ask (.deleteRoute routeId)) = none := by
      rw [started?, run_deleteRoute_unknown hstored]
      rfl
    rw [run_deleteRoute_unknown hstored] at hmoved
    refine .idle rfl hstarted ?_ ?_ ?_ <;> rw [hmoved]

theorem effect_getJob (s : Store τ) (jobId : String) : s.Effect (.ask (.getJob jobId)) := by
  have hmoved := s.moved_getJob jobId
  cases hfound : s.jobs.find? jobId with
  | none =>
    rw [run_getJob_unknown hfound] at hmoved
    refine .idle rfl rfl ?_ ?_ ?_ <;> rw [hmoved]
  | some t =>
    rw [run_getJob hfound] at hmoved
    exact .polls jobId t rfl hfound hmoved

theorem effect (s : Store τ) (m : Move τ) : s.Effect m := by
  cases m with
  | seed seed => exact s.effect_seed seed
  | ask q =>
    cases q with
    | listResources resource filters page =>
      have hmoved : s.moved (.ask (.listResources resource filters page)) =
          { s with calls := s.calls ++ [.listResources resource filters page] } :=
        run_discarded s
      refine .idle rfl rfl ?_ ?_ ?_ <;> rw [hmoved]
    | createRoute domainId spaceId host path => exact s.effect_createRoute domainId spaceId host path
    | deleteRoute routeId => exact s.effect_deleteRoute routeId
    | getJob jobId => exact s.effect_getJob jobId
    | associateRoute applicationId routeId =>
      have hmoved : s.moved (.ask (.associateRoute applicationId routeId)) =
          ((associateRoute applicationId routeId).run s).2 := rfl
      rw [run_associateRoute] at hmoved
      dsimp only at hmoved
      split at hmoved <;> refine .idle rfl rfl ?_ ?_ ?_ <;> rw [hmoved]
    | removeRoute applicationId routeId => exact .idle rfl rfl rfl rfl (Nat.le_refl _)

theorem nextId_look (s : Store τ) (t : JobTrack) : (s.look t).nextId = s.nextId := by
  obtain ⟨_, _, _, h⟩ := s.look_frame t
  rw [h]

theorem nextId_moved_le (s : Store τ) (m : Move τ) : s.nextId ≤ (s.moved m).nextId := by
  cases s.effect m with
  | idle _ _ _ _ hnext => exact hnext
  | adds _ _ _ _ _ _ _ hnext => omega
  | scripts _ _ _ _ _ _ hnext => omega
  | deletes routeId _ _ hmoved =>
    rw [hmoved]
    exact Nat.le_succ _
  | polls jobId t _ _ hmoved =>
    rw [hmoved, nextId_look]

theorem nextId_history_le (s : Store τ) (moves : List (Move τ)) :
    s.nextId ≤ (s.history moves).nextId := by
  induction moves generalizing s with
  | nil => exact Nat.le_refl _
  | cons m moves ih => exact (s.nextId_moved_le m).trans (ih (s.moved m))

/-- The route that a move adds gets the next id, and its host and path are as they were normalized. -/
theorem addition_eq {m : Move τ} {r : Route} (h : s.addition? m = some r) :
    r.id = routeName s.nextId ∧ (∃ host path, r.host = normalSegment host ∧ r.path = normalPath path) ∧
      (s.moved m).routes = s.routes.put r ∧ (s.moved m).nextId = s.nextId + 1 := by
  cases s.effect m with
  | idle hadded =>
    rw [hadded] at h
    cases h
  | adds r' hadded _ hid hspelled hroutes _ hnext =>
    rw [hadded] at h
    cases h
    exact ⟨hid, hspelled, hroutes, hnext⟩
  | scripts _ hadded =>
    rw [hadded] at h
    cases h
  | deletes routeId hmove =>
    subst hmove
    cases h
  | polls jobId t hmove =>
    subst hmove
    cases h

/-- A route that is stored after a move was stored before it or is the one that the move adds. -/
theorem mem_routes_moved {m : Move τ} {r : Route} (h : r ∈ (s.moved m).routes.items) :
    r ∈ s.routes.items ∨ s.addition? m = some r := by
  cases s.effect m with
  | idle _ _ hroutes => exact .inl (hroutes ▸ h)
  | adds r' hadded _ _ _ hroutes =>
    rw [hroutes] at h
    rcases Register.mem_put h with rfl | hold
    · exact .inr hadded
    · exact .inl hold
  | scripts _ _ _ _ hroutes => exact .inl (hroutes ▸ h)
  | deletes routeId _ _ hmoved =>
    rw [hmoved] at h
    exact .inl h
  | polls jobId t _ _ hmoved =>
    rw [hmoved] at h
    exact .inl (routes_look_subset { s with calls := s.calls ++ [.getJob jobId] } t h)

/-- A job is started under the next number, for a route that is stored. -/
theorem started_eq {m : Move τ} {p : String × String} (h : s.started? m = some p) :
    m = .ask (.deleteRoute p.2) ∧ p.1 = jobName s.nextId ∧ s.routes.contains p.2 = true ∧
      s.moved m = s.deleting p.2 := by
  cases s.effect m with
  | idle _ hstarted =>
    rw [hstarted] at h
    cases h
  | adds _ _ hstarted =>
    rw [hstarted] at h
    cases h
  | scripts _ _ hstarted =>
    rw [hstarted] at h
    cases h
  | deletes routeId hmove hstored hmoved =>
    subst hmove
    rw [started?, run_deleteRoute hstored] at h
    cases h
    exact ⟨rfl, rfl, hstored, hmoved⟩
  | polls jobId t hmove =>
    subst hmove
    cases h

/-- Whatever gets an id gets the next one. -/
theorem given_eq {m : Move τ} {id : String} (h : s.given? m = some id) :
    ∃ stem, id = idText stem s.nextId ∧ (s.moved m).nextId = s.nextId + 1 := by
  have hother (h : ((s.addition? m).map Route.id).or ((s.started? m).map Prod.fst) = some id) :
      ∃ stem, id = idText stem s.nextId ∧ (s.moved m).nextId = s.nextId + 1 := by
    cases hadded : s.addition? m with
    | some r =>
      rw [hadded] at h
      cases h
      obtain ⟨hid, -, -, hnext⟩ := addition_eq hadded
      exact ⟨"route", hid, hnext⟩
    | none =>
      rw [hadded, Option.map_none, Option.none_or, Option.map_eq_some_iff] at h
      obtain ⟨p, hstarted, rfl⟩ := h
      obtain ⟨-, hid, -, hmoved⟩ := started_eq hstarted
      exact ⟨"job", hid, by rw [hmoved]; rfl⟩
  cases m with
  | ask q => exact hother h
  | seed seed =>
    cases seed with
    | organization name =>
      rw [given_organization] at h
      exact ⟨"org", (Option.some.inj h).symm, rfl⟩
    | space organizationId name =>
      rw [given_space] at h
      exact ⟨"space", (Option.some.inj h).symm, rfl⟩
    | privateDomain organizationId name =>
      exact ⟨"private-domain", (Option.some.inj h).symm, rfl⟩
    | sharedDomain name => exact ⟨"shared-domain", (Option.some.inj h).symm, rfl⟩
    | application spaceId name =>
      rw [given_application] at h
      exact ⟨"app", (Option.some.inj h).symm, rfl⟩
    | route | job | deletion | listFailure | refused => exact hother h

/-- Ids are given out at most once in a history, and under numbers from the first next one on. -/
theorem given_nodup (s : Store τ) (moves : List (Move τ)) :
    (along given? s moves).Nodup ∧
      ∀ id ∈ along given? s moves, ∃ stem number, s.nextId ≤ number ∧ id = idText stem number := by
  induction moves generalizing s with
  | nil => exact ⟨List.nodup_nil, fun _ h => absurd h List.not_mem_nil⟩
  | cons m moves ih =>
    obtain ⟨hnodup, hnumbers⟩ := ih (s.moved m)
    have hnext := s.nextId_moved_le m
    cases hgiven : s.given? m with
    | none =>
      rw [along, hgiven]
      refine ⟨hnodup, fun id hid => ?_⟩
      obtain ⟨stem, number, hle, rfl⟩ := hnumbers id hid
      exact ⟨stem, number, hnext.trans hle, rfl⟩
    | some first =>
      obtain ⟨stem, hfirst, hsucc⟩ := given_eq hgiven
      rw [along, hgiven, Option.toList_some, List.singleton_append]
      refine ⟨List.nodup_cons.mpr ⟨fun hmem => ?_, hnodup⟩, fun id hid => ?_⟩
      · obtain ⟨stem', number, hle, hsame⟩ := hnumbers _ hmem
        have := number_of_idText (hfirst.symm.trans hsame)
        omega
      · rcases List.mem_cons.mp hid with rfl | hid
        · exact ⟨stem, s.nextId, Nat.le_refl _, hfirst⟩
        · obtain ⟨stem', number, hle, rfl⟩ := hnumbers id hid
          exact ⟨stem', number, hnext.trans hle, rfl⟩

end Store

end PlatformRoutes
