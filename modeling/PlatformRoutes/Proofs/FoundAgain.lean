import PlatformRoutes.Proofs.ExactDeletion
import PlatformRoutes.Proofs.ResolvedNames

namespace PlatformRoutes

namespace Store

variable {τ α : Type} {w : World (Store τ) τ} {name scopeId : String}

/-- Of the things of a scope only the one that is put may have a name that none had. -/
theorem filter_put_scoped [Keyed α] {register : Register α} (a : α) (nameOf : α → String)
    {inScope : α → Bool} (fresh : ∀ b ∈ register.items.filter inScope, nameOf b ≠ name) :
    ((register.put a).items.filter inScope).filter (fun b => nameOf b == name) =
      [a].filter fun b => nameOf b == name && inScope b := by
  have hnone : register.items.filter (fun b => nameOf b == name && inScope b) = [] := by
    rw [← List.filter_filter, List.filter_eq_nil_iff]
    exact fun b hb => by simpa using fresh b hb
  rw [List.filter_filter, Register.put, Register.filter_putInto_of_none hnone]

theorem filter_put_inside [Keyed α] {register : Register α} {a : α} (nameOf : α → String)
    (inScope : α → Bool) (ha : inScope a = true)
    (fresh : ∀ b ∈ register.items.filter inScope, nameOf b ≠ name) :
    ((register.put a).items.filter inScope).filter (fun b => nameOf b == name) =
      if nameOf a = name then [a] else [] := by
  rw [filter_put_scoped a nameOf fresh, List.filter_cons, ha, Bool.and_true, List.filter_nil]
  simp only [beq_iff_eq]

theorem filter_put_outside [Keyed α] {register : Register α} {a : α} (nameOf : α → String)
    {inScope : α → Bool} (ha : inScope a = false)
    (fresh : ∀ b ∈ register.items.filter inScope, nameOf b ≠ name) :
    ((register.put a).items.filter inScope).filter (fun b => nameOf b == name) = [] := by
  rw [filter_put_scoped a nameOf fresh, List.filter_singleton, ha, Bool.and_false]
  rfl

theorem filter_put_owned {register : Register Owned} (r : Ref)
    (fresh : ∀ o ∈ register.items.filter fun o => o.owner == scopeId, o.ref.name ≠ name) :
    (((register.put ⟨r, scopeId⟩).items.filter fun o => o.owner == scopeId).map Owned.ref).filter
        (fun r => r.name == name) = if r.name = name then [r] else [] := by
  have hput := filter_put_inside (a := (⟨r, scopeId⟩ : Owned)) (fun o => o.ref.name) _
    (beq_self_eq_true scopeId) fresh
  rw [List.filter_map]
  refine (congrArg (List.map Owned.ref) hput).trans ?_
  split <;> rfl

/-- What is done with the records found is what a lookup comes to, unless its listing fails. -/
theorem found_bind_learns (hpaged : 0 < w.platform.pageSize) {q : Query}
    {items : List q.resource.Item} {next : List q.resource.Item → Run (Store τ) τ α}
    {outcome : Except (Failure τ) α} (hitems : (w.platform.candidates q).filter q.means = items)
    (hnext : ∀ requests, Learns (next items) (w.logged requests) outcome) :
    Learns (Run.found q >>= next) w (w.platform.unlessFailing q outcome) := by
  have hfound := found_learns hpaged q
  rw [found_candidates, hitems] at hfound
  unfold unlessFailing at hfound ⊢
  cases hfailure : w.platform.failureOf? q.resource q.filters with
  | some failure =>
    rw [hfailure] at hfound
    exact hfound.bind_error
  | none =>
    rw [hfailure] at hfound
    exact hfound.bind hnext

/-- A domain of the organization that alone has a name is found without asking for shared ones. -/
theorem resolveDomain_owned_learns (hpaged : 0 < w.platform.pageSize) {d : Domain}
    (howned : (w.platform.ownDomains scopeId).filter (fun d => d.name == name) = [d]) :
    Learns (Run.resolveDomain scopeId name) w
      (w.platform.unlessFailing (.ownedDomain scopeId name) (.ok d)) :=
  found_bind_learns hpaged (q := .ownedDomain scopeId name) howned fun _ => Learns.pure d _

theorem resolveDomain_shared_learns (hpaged : 0 < w.platform.pageSize) {d : Domain}
    (howned : (w.platform.ownDomains scopeId).filter (fun d => d.name == name) = [])
    (hshared : w.platform.sharedDomains.filter (fun d => d.name == name) = [d]) :
    Learns (Run.resolveDomain scopeId name) w
      (w.platform.unlessFailing (.ownedDomain scopeId name)
        (w.platform.unlessFailing (.sharedDomain name) (.ok d))) :=
  found_bind_learns hpaged (q := .ownedDomain scopeId name) howned fun requests =>
    found_bind_learns (w := w.logged requests) hpaged (q := .sharedDomain name) hshared fun _ =>
      Learns.pure d _

/-- The verdict on a name that one thing has, or none. -/
def onlyIf (found : Prop) [Decidable found] (kind : ResourceKind) (name : String) (a : α) :
    Except (Failure τ) α :=
  if found then .ok a else .error (.notFound kind name)

theorem onlyIf_pos {found : Prop} [Decidable found] (h : found) (kind : ResourceKind)
    (name : String) :
    (onlyIf found kind name : α → Except (Failure τ) α) = .ok :=
  funext fun _ => if_pos h

theorem single_learns (found : Prop) [Decidable found] (kind : ResourceKind) (name : String) (a : α)
    (w : World (Store τ) τ) :
    Learns (Run.single kind name (if found then [a] else [])) w (onlyIf found kind name a) := by
  unfold onlyIf
  split
  · exact Learns.pure a w
  · exact Learns.throw _ w

end Store

/-- A thing is added, and what a lookup then comes to is made of it, unless a failure is set up for
one of the listings that the lookup goes through. -/
def World.FindsAdded {τ α : Type} (w : World (Store τ) τ) (add : Act (Store τ) τ α)
    (lookup : Run (Store τ) τ α) (queries : List Query) (outcome : α → Except (Failure τ) α) : Prop :=
  ∃ added, (add.run w.platform).1 = .ok added ∧
    Store.Learns lookup { w with platform := (add.run w.platform).2 }
      (queries.foldr w.platform.unlessFailing (outcome added))

namespace Store

variable {τ : Type} {w : World (Store τ) τ}

/-- An addition that is made changes neither the size of pages nor the failures set up. -/
structure Makes {τ α : Type} (add : Act (Store τ) τ α) (s : Store τ) (a : α) : Prop where
  made : (add.run s).1 = .ok a
  pageSize : (add.run s).2.pageSize = s.pageSize
  listFailures : (add.run s).2.listFailures = s.listFailures

theorem unlessFailing_same {α : Type} {s t : Store τ} (h : t.listFailures = s.listFailures) (q : Query)
    (outcome : Except (Failure τ) α) : t.unlessFailing q outcome = s.unlessFailing q outcome := by
  rw [unlessFailing, failureOf?, h]
  rfl

theorem findsAdded_single (hpaged : 0 < w.platform.pageSize) (q : Query)
    {add : Act (Store τ) τ q.resource.Item} {a : q.resource.Item} (hadd : Makes add w.platform a)
    (found : Prop) [Decidable found] (kind : ResourceKind) (name : String)
    (hitems : ((add.run w.platform).2.candidates q).filter q.means = if found then [a] else []) :
    w.FindsAdded add (Run.found q >>= Run.single kind name) [q] (onlyIf found kind name) := by
  refine ⟨a, hadd.made, ?_⟩
  rw [List.foldr_cons, List.foldr_nil, ← unlessFailing_same hadd.listFailures]
  exact found_bind_learns (w := { w with platform := (add.run w.platform).2 })
    (hadd.pageSize.symm ▸ hpaged) hitems fun _ => single_learns _ _ _ _ _

/-- Where nothing in its scope has the name that is looked up, an organization, a space or an
application that is added is found under its name without the blanks around it and under no other,
so it is not found under the name it was given if that has any. A domain is found under the name it
was given as it is, be it private or, if the organization has none of that name, shared. -/
theorem added_found (hpaged : 0 < w.platform.pageSize) (scopeId name wanted : String) :
    ((∀ r ∈ w.platform.organizations.items, r.name ≠ wanted) →
      w.FindsAdded (addOrganization name) (Run.resolveOrganization wanted) [.organization wanted]
        (onlyIf (Text.strip name = wanted) .organization wanted)) ∧
    ((∀ o ∈ w.platform.ownSpaces scopeId, o.ref.name ≠ wanted) →
      w.FindsAdded (addSpace scopeId name) (Run.resolveSpace scopeId wanted) [.space scopeId wanted]
        (onlyIf (Text.strip name = wanted) .space wanted)) ∧
    ((∀ o ∈ w.platform.ownApplications scopeId, o.ref.name ≠ wanted) →
      w.FindsAdded (addApplication scopeId name) (Run.resolveApplication scopeId wanted)
        [.application scopeId wanted] (onlyIf (Text.strip name = wanted) .application wanted)) ∧
    ((∀ d ∈ w.platform.ownDomains scopeId, d.name ≠ name) →
      w.FindsAdded (addPrivateDomain scopeId name) (Run.resolveDomain scopeId name)
        [.ownedDomain scopeId name] .ok) ∧
    ((∀ d ∈ w.platform.ownDomains scopeId, d.name ≠ name) →
      (∀ d ∈ w.platform.sharedDomains, d.name ≠ name) →
      w.FindsAdded (addSharedDomain name) (Run.resolveDomain scopeId name)
        [.ownedDomain scopeId name, .sharedDomain name] .ok) := by
  refine ⟨fun fresh => ?_, fun fresh => ?_, fun fresh => ?_, fun fresh => ?_, fun owned fresh => ?_⟩
  · have hput := filter_put_inside (a := Ref.of ("org" ++ "-" ++ toString w.platform.nextId) name)
      Ref.name (fun _ => true) rfl (by rwa [List.filter_true])
    rw [List.filter_true] at hput
    exact findsAdded_single hpaged (.organization wanted) ⟨rfl, rfl, rfl⟩ _ .organization wanted hput
  · exact findsAdded_single hpaged (.space scopeId wanted) ⟨rfl, rfl, rfl⟩ _ .space wanted
      (filter_put_owned _ fresh)
  · exact findsAdded_single hpaged (.application scopeId wanted) ⟨rfl, rfl, rfl⟩ _ .application wanted
      (filter_put_owned _ fresh)
  · refine ⟨_, rfl, resolveDomain_owned_learns ?_ ?_⟩
    · exact hpaged
    · exact (filter_put_inside Domain.name _ (by simp) fresh).trans (if_pos rfl)
  · refine ⟨_, rfl, resolveDomain_shared_learns ?_ ?_ ?_⟩
    · exact hpaged
    -- A shared domain is none of the organization's own, so the lookup goes on to the shared ones.
    · exact filter_put_outside Domain.name rfl owned
    · exact (filter_put_inside Domain.name _ rfl fresh).trans (if_pos rfl)

/-- A space whose name another organization has as well is found without the blanks it was given,
and a shared domain is found with them. -/
theorem added_found_padded :
    0 < namesakesWorld.platform.pageSize ∧
      (∀ o ∈ namesakesWorld.platform.ownSpaces "third", o.ref.name ≠ "dev") ∧
      (∀ d ∈ namesakesWorld.platform.ownDomains "third", d.name ≠ " dev\t") ∧
      (∀ d ∈ namesakesWorld.platform.sharedDomains, d.name ≠ " dev\t") ∧
      namesakesWorld.FindsAdded (addSpace "third" " dev\t") (Run.resolveSpace "third" "dev")
        [.space "third" "dev"] .ok ∧
      namesakesWorld.FindsAdded (addSharedDomain " dev\t") (Run.resolveDomain "third" " dev\t")
        [.ownedDomain "third" " dev\t", .sharedDomain " dev\t"] .ok := by
  have spaces : ∀ o ∈ namesakesWorld.platform.ownSpaces "third", o.ref.name ≠ "dev" := by decide
  have owned : ∀ d ∈ namesakesWorld.platform.ownDomains "third", d.name ≠ " dev\t" := by decide
  have shared : ∀ d ∈ namesakesWorld.platform.sharedDomains, d.name ≠ " dev\t" := by decide
  have hpaged : 0 < namesakesWorld.platform.pageSize := by decide
  obtain ⟨-, hspace, -, -, hdomain⟩ := added_found hpaged "third" " dev\t" "dev"
  have hstrip : Text.strip " dev\t" = "dev" := by decide +kernel
  have hfound := hspace spaces
  rw [onlyIf_pos hstrip] at hfound
  exact ⟨hpaged, spaces, owned, shared, hfound, hdomain owned shared⟩

/-- An empty platform. -/
def emptyWorld : World (Store Nat) Nat :=
  { namesakesWorld with platform := { pageSize := 1, substringFilters := false } }

/-- An organization is not found under the very name that it was given, if that has blanks around
it. -/
theorem added_not_found :
    emptyWorld.platform.organizations.items = [] ∧
      ((addOrganization " dev ").run emptyWorld.platform).1 = .ok ⟨"org-1", "dev"⟩ ∧
      Learns (Run.resolveOrganization " dev ")
        { emptyWorld with platform := ((addOrganization " dev ").run emptyWorld.platform).2 }
        (.error (.notFound .organization " dev ")) := by
  have hadded : ((addOrganization " dev ").run emptyWorld.platform).1 = .ok ⟨"org-1", "dev"⟩ := by
    rfl
  obtain ⟨added, -, hlearns⟩ := findsAdded_single (w := emptyWorld) Nat.one_pos
    (.organization " dev ") ⟨hadded, rfl, rfl⟩ False .organization " dev " (by decide +kernel)
  exact ⟨rfl, hadded, hlearns⟩

end Store

end PlatformRoutes
