import PlatformRoutes.Proofs.Matching

namespace PlatformRoutes

namespace Store

variable {τ α β : Type} {s : Store τ} {w : World (Store τ) τ} {resource : Resource}
  {filters : Filters} {p q : List Request}

/-- Why the platform turns a request down, if it is for a listing that was set up to fail. -/
def denial (s : Store τ) : Request → Option (Failure τ)
  | .listResources resource filters _ => s.failureOf? resource filters
  | _ => none

/-- The requests of a plan that are made: none after the first that is turned down. -/
def made (s : Store τ) : List Request → List Request
  | [] => []
  | q :: rest => if (s.denial q).isSome then [q] else q :: s.made rest

/-- What a plan that aims at a result comes to. -/
def outcomeOf (s : Store τ) (plan : List Request) (a : α) : Except (Failure τ) α :=
  match plan.findSome? s.denial with
  | some f => .error f
  | none => .ok a

theorem denied_append (h : p.findSome? s.denial ≠ none) (q : List Request) :
    s.made (p ++ q) = s.made p ∧ (p ++ q).findSome? s.denial = p.findSome? s.denial := by
  induction p with
  | nil => simp at h
  | cons r p ih =>
    cases hr : s.denial r with
    | some f => simp [made, hr]
    | none =>
      simp only [List.findSome?_cons, hr] at h
      simp [made, hr, ih h]

theorem granted_append (h : p.findSome? s.denial = none) (q : List Request) :
    s.made (p ++ q) = p ++ s.made q ∧ (p ++ q).findSome? s.denial = q.findSome? s.denial := by
  induction p with
  | nil => simp
  | cons r p ih =>
    simp only [List.findSome?_eq_none_iff, List.mem_cons, forall_eq_or_imp] at h
    have hrest := ih (List.findSome?_eq_none_iff.mpr h.2)
    simp [made, h.1, hrest]

/-- An operation makes the requests of a plan and nothing else, and has its result if none of them is
turned down. -/
def Follows (x : Run (Store τ) τ α) (w : World (Store τ) τ) (plan : List Request) (a : α) : Prop :=
  ∀ before, x.run (w.logged before) =
    (w.platform.outcomeOf plan a, w.logged (before ++ w.platform.made plan))

namespace Follows

variable {x : Run (Store τ) τ α} {f : α → Run (Store τ) τ β} {a : α} {b : β}

theorem pure (a : α) (w : World (Store τ) τ) : Follows (pure a) w [] a := by
  intro before
  simp [made, outcomeOf]
  rfl

/-- Plans are followed one after the other. -/
theorem bind (hx : Follows x w p a) (hf : Follows (f a) w q b) : Follows (x >>= f) w (p ++ q) b := by
  intro before
  have hfirst := hx before
  cases hp : p.findSome? w.platform.denial with
  | some e =>
    obtain ⟨hmade, hdenied⟩ := denied_append (s := w.platform) (p := p) (by simp [hp]) q
    simp only [outcomeOf, hp] at hfirst
    rw [run_bind_error hfirst]
    simp only [outcomeOf, hdenied, hmade, hp]
  | none =>
    obtain ⟨hmade, hgranted⟩ := granted_append hp q
    have hall : w.platform.made p = p := by
      have := (granted_append hp []).1
      simpa [made] using this
    simp only [outcomeOf, hp, hall] at hfirst
    rw [run_bind_ok hfirst, hf (before ++ p)]
    simp only [outcomeOf, hgranted, hmade, List.append_assoc]

/-- What only is made of a result needs no request. -/
theorem returning (hx : Follows x w p a) (make : α → β) :
    Follows (do return make (← x)) w p (make a) := by
  have hboth := hx.bind (f := fun a => Pure.pure (make a)) (pure (make a) w)
  rwa [List.append_nil] at hboth

theorem mapM {f : α → Run (Store τ) τ β} {plan : α → List Request} {g : α → β} {l : List α}
    (h : ∀ a ∈ l, Follows (f a) w (plan a) (g a)) :
    Follows (l.mapM f) w (l.flatMap plan) (l.map g) := by
  induction l with
  | nil => exact pure [] w
  | cons a l ih =>
    rw [List.mapM_cons, List.flatMap_cons, List.map_cons]
    apply bind (h a List.mem_cons_self)
    exact returning (ih fun b hb => h b (List.mem_cons_of_mem a hb)) (g a :: ·)

/-- A plan of which nothing is turned down is followed to its end. -/
theorem granted (h : Follows x w p a) (hp : ∀ q ∈ p, w.platform.denial q = none) :
    x.run w = (.ok a, w.logged p) := by
  have hnone : p.findSome? w.platform.denial = none := List.findSome?_eq_none_iff.mpr hp
  have hrun := h []
  have hmade := (granted_append hnone []).1
  simp only [made, List.append_nil] at hmade
  simpa [logged_nil, outcomeOf, hnone, hmade] using hrun

/-- A plan is followed up to the first request that is turned down. -/
theorem denied (h : Follows x w p a) {before later : List Request} {q : Request} {e : Failure τ}
    (hp : p = before ++ q :: later) (hbefore : ∀ r ∈ before, w.platform.denial r = none)
    (hq : w.platform.denial q = some e) : x.run w = (.error e, w.logged (before ++ [q])) := by
  have hnone : before.findSome? w.platform.denial = none :=
    List.findSome?_eq_none_iff.mpr hbefore
  obtain ⟨hmade, hfirst⟩ := granted_append hnone (q :: later)
  have hrun := h []
  subst hp
  simpa [logged_nil, outcomeOf, hmade, hfirst, made, hq] using hrun

end Follows

theorem follows_page {items : List resource.Item}
    (h : w.platform.select resource filters = .ok items) {n : Nat} (hn : 1 ≤ n) :
    Follows (Run.pagesOf resource filters n) w [.listResources resource filters n]
      ⟨(items.drop ((n - 1) * w.platform.pageSize)).take w.platform.pageSize, n,
        pageCount w.platform.pageSize items.length⟩ := by
  intro before
  rw [run_page, logged_logged]
  have hlisting := listing_logged (w := w) before resource filters
  cases hf : w.platform.failureOf? resource filters with
  | some f =>
    have herror : w.platform.listing resource filters = .error f := by simp [listing, hf]
    rw [listPage_error (hlisting.trans herror)]
    simp [outcomeOf, made, denial, hf]
  | none =>
    have hok : w.platform.listing resource filters = .ok items := by simp [listing, hf, h]
    rw [listPage_ok (hlisting.trans hok) hn]
    simp [outcomeOf, made, denial, hf]
    rfl

/-- The requests for a page and then those for each of its items. -/
def pagePlan (s : Store τ) (resource : Resource) (filters : Filters) (items : List α)
    (visit : α → List Request) (index : Nat) : List Request :=
  .listResources resource filters (index + 1 : Nat) ::
    ((items.drop (index * s.pageSize)).take s.pageSize).flatMap visit

/-- Going through a listing from any page on, with something to do for each item before the next page
is asked for. -/
theorem follows_traverse {items : List resource.Item} {handle : resource.Item → Run (Store τ) τ β}
    {visit : resource.Item → List Request} {g : resource.Item → β} (hpos : 0 < w.platform.pageSize)
    (hselect : w.platform.select resource filters = .ok items)
    (hhandle : ∀ x ∈ items, Follows (handle x) w (visit x) (g x)) (fuel index : Nat)
    (hfuel : max 1 (pageCount w.platform.pageSize items.length - index) ≤ fuel) :
    Follows (Paging.traverse (Run.pagesOf resource filters) handle fuel (index + 1)) w
      ((List.range' index (max 1 (pageCount w.platform.pageSize items.length - index))).flatMap
        (w.platform.pagePlan resource filters items visit))
      ((items.drop (index * w.platform.pageSize)).map g) := by
  induction fuel generalizing index with
  | zero => omega
  | succ fuel ih =>
    have hpage := follows_page hselect (Nat.le_add_left 1 index)
    rw [Nat.add_sub_cancel] at hpage
    have hitems : ∀ x ∈ (items.drop (index * w.platform.pageSize)).take w.platform.pageSize,
        Follows (handle x) w (visit x) (g x) := by
      intro x hx
      exact hhandle x (List.mem_of_mem_drop (List.mem_of_mem_take hx))
    rw [Paging.traverse]
    by_cases more : index + 1 < pageCount w.platform.pageSize items.length
    · have hcount : max 1 (pageCount w.platform.pageSize items.length - index) =
          max 1 (pageCount w.platform.pageSize items.length - (index + 1)) + 1 := by omega
      rw [hcount, List.range'_succ, List.flatMap_cons, pagePlan, ← List.singleton_append,
        List.append_assoc]
      apply hpage.bind
      apply (Follows.mapM hitems).bind
      have hnext : (Page.mk ((items.drop (index * w.platform.pageSize)).take w.platform.pageSize)
          ((index + 1 : Nat) : Int) (pageCount w.platform.pageSize items.length)).hasNext = true := by
        simp [Page.hasNext]
        omega
      rw [hnext, if_pos rfl]
      have hrest := (ih (index + 1) (by omega)).returning
        (((items.drop (index * w.platform.pageSize)).take w.platform.pageSize).map g ++ ·)
      have hall := page_append_rest w.platform.pageSize items (Nat.le_add_left 1 index)
      rw [Nat.add_sub_cancel] at hall
      rwa [← List.map_append, hall] at hrest
    · have hcount : max 1 (pageCount w.platform.pageSize items.length - index) = 1 := by omega
      have hfits := last_page_fits hpos items (Nat.le_add_left 1 index) (Nat.not_lt.mp more)
      rw [Nat.add_sub_cancel] at hfits
      rw [hcount, List.range'_one, List.flatMap_singleton, pagePlan, ← List.singleton_append]
      apply hpage.bind
      have hnext : (Page.mk ((items.drop (index * w.platform.pageSize)).take w.platform.pageSize)
          ((index + 1 : Nat) : Int) (pageCount w.platform.pageSize items.length)).hasNext = false := by
        simp [Page.hasNext]
        omega
      have hlast := (Follows.mapM hitems).returning id
      simp only [hnext, Bool.false_eq_true, if_false]
      rw [List.take_of_length_le hfits] at hlast ⊢
      exact hlast

/-- The requests for all pages of a listing of so many items. Even an empty one has a page. -/
def wholeListing (s : Store τ) (resource : Resource) (filters : Filters) (count : Nat) :
    List Request :=
  pageRequests resource filters 1 (max 1 (pageCount s.pageSize count))

theorem follows_listAll {items : List resource.Item} (hw : w.Patient)
    (hselect : w.platform.select resource filters = .ok items) :
    Follows (Run.listAll resource filters) w
      (w.platform.wholeListing resource filters items.length) items := by
  have hpatience := (pages_le_extent hw.paged hselect).trans hw.extent
  have hitem : ∀ x ∈ items, Follows (pure x) w [] (id x) := fun x _ => Follows.pure x w
  have hpages := follows_traverse hw.paged hselect hitem w.patience 0 hpatience
  have hplan : (List.range' 0 (max 1 (pageCount w.platform.pageSize items.length - 0))).flatMap
      (w.platform.pagePlan resource filters items fun _ => []) =
        w.platform.wholeListing resource filters items.length := by
    have hpage : w.platform.pagePlan resource filters items (fun _ => []) =
        fun index : Nat => [.listResources resource filters (index + 1 : Nat)] := by
      funext index
      simp [pagePlan]
    rw [hpage, ← List.map_eq_flatMap, wholeListing, pageRequests, Nat.sub_zero,
      List.range'_eq_map_range, List.range'_eq_map_range]
    simp [Nat.add_comm]
  rw [hplan, Nat.zero_mul, List.drop_zero, List.map_id] at hpages
  exact hpages

theorem Follows.patient {g : Nat → Run (Store τ) τ α} {a : α} (h : Follows (g w.patience) w p a) :
    Follows (do g (← get).patience) w p a := by
  intro before
  exact h before

end Store

end PlatformRoutes
