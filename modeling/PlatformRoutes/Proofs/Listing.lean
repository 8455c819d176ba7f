import PlatformRoutes.Proofs.Ends
import PlatformRoutes.Resolver
import PlatformRoutes.Store.Requests

namespace PlatformRoutes

/-- What is said of each result by what it came of is said of all results in their order. -/
theorem map_of_mapM_ok {α β γ ε : Type} {f : α → Except ε β} {k : β → γ} {g : α → γ} {l : List α}
    {bs : List β} (h : l.mapM f = .ok bs) (hk : ∀ a ∈ l, ∀ b, f a = .ok b → k b = g a) :
    bs.map k = l.map g := by
  induction l generalizing bs with
  | nil =>
    cases h
    rfl
  | cons a l ih =>
    rw [List.mapM_cons] at h
    cases ha : f a with
    | error e =>
      rw [ha] at h
      cases h
    | ok b =>
      cases hl : l.mapM f with
      | error e =>
        rw [ha, hl] at h
        cases h
      | ok rest =>
        rw [ha, hl] at h
        cases h
        rw [List.map_cons, List.map_cons, hk a List.mem_cons_self b ha,
          ih hl fun x hx => hk x (List.mem_cons_of_mem a hx)]

/-- A list of outcomes that are all well comes to as many results. -/
theorem length_of_mapM_ok {α β ε : Type} {f : α → Except ε β} {l : List α} {bs : List β}
    (h : l.mapM f = .ok bs) : bs.length = l.length := by
  have hsame : bs.map (fun _ => ()) = l.map fun _ => () := map_of_mapM_ok h fun _ _ _ _ => rfl
  simpa using congrArg List.length hsame

theorem exists_mapM_ok {α β ε : Type} {f : α → Except ε β} {l : List α}
    (h : ∀ a ∈ l, ∃ b, f a = .ok b) : ∃ bs, l.mapM f = .ok bs := by
  induction l with
  | nil => exact ⟨[], rfl⟩
  | cons a l ih =>
    obtain ⟨b, hb⟩ := h a List.mem_cons_self
    obtain ⟨bs, hbs⟩ := ih fun x hx => h x (List.mem_cons_of_mem a hx)
    refine ⟨b :: bs, ?_⟩
    rw [List.mapM_cons, hb, hbs]
    rfl

/-- The world after requests that left nothing but themselves in the platform's record. -/
def World.logged {τ : Type} (w : World (Store τ) τ) (requests : List Request) :
    World (Store τ) τ :=
  { w with platform := { w.platform with calls := w.platform.calls ++ requests } }

namespace Store

variable {τ : Type} {s : Store τ} {w : World (Store τ) τ} {resource : Resource} {filters : Filters}

theorem logged_nil (w : World (Store τ) τ) : w.logged [] = w := by
  simp only [World.logged, List.append_nil]

theorem logged_logged (w : World (Store τ) τ) (before after : List Request) :
    (w.logged before).logged after = w.logged (before ++ after) := by
  simp only [World.logged, List.append_assoc]

/-- The requests for some pages in a row. -/
def pageRequests (resource : Resource) (filters : Filters) (first count : Nat) : List Request :=
  (List.range' first count).map fun n : Nat => .listResources resource filters n

/-- All that a listing comes to, before it is cut into pages. -/
def listing (s : Store τ) (resource : Resource) (filters : Filters) :
    Except (Failure τ) (List resource.Item) :=
  match s.failureOf? resource filters with
  | some failure => .error failure
  | none => s.select resource filters

/-- How many pages of a listing are asked for. A failure shows on the first, and even an empty
listing has one. -/
def pagesRead (s : Store τ) (resource : Resource) (filters : Filters) : Nat :=
  match s.listing resource filters with
  | .error _ => 1
  | .ok items => max 1 (pageCount s.pageSize items.length)

theorem length_le_pages {size : Nat} (h : 0 < size) (length : Nat) :
    length ≤ pageCount size length * size := by
  have := Nat.lt_div_mul_add (a := length + size - 1) h
  unfold pageCount
  omega

theorem cut_ok (size : Nat) (items : List α) {n : Nat} (h : 1 ≤ n) :
    cut size items n =
      .ok ⟨(items.drop ((n - 1) * size)).take size, n, pageCount size items.length⟩ := by
  have hn : ¬ (n : Int) < 1 := by omega
  have hc : ¬ ((pageCount size items.length : Nat) : Int) < 0 := by omega
  have ht : ((n : Int) - 1).toNat = n - 1 := by omega
  simp only [cut, Page.of, Checked.atLeast, hn, hc, ht, if_false]
  rfl

/-- A listing that comes to something comes to what is selected for it. -/
theorem select_of_listing {items : List resource.Item} (h : s.listing resource filters = .ok items) :
    s.select resource filters = .ok items := by
  unfold listing at h
  split at h
  · cases h
  · exact h

def routesOf (s : Store τ) (spaceId : String) : List Route :=
  s.routes.items.filter fun r => r.spaceId == spaceId

theorem select_routesOf (spaceId : String) :
    s.select .spaceRoutes [(.spaceId, spaceId)] = .ok (s.routesOf spaceId) := by
  change Except.ok (s.routes.items.filter (s.routeFits [(.spaceId, spaceId)])) = _
  congr 2
  funext r
  simp [routeFits, passes, Filters.get?]

theorem listPage_error {failure : Failure τ} (h : s.listing resource filters = .error failure)
    (page : Int) : s.listPage resource filters page = .error failure := by
  unfold listing at h
  unfold listPage
  cases hf : s.failureOf? resource filters with
  | some f => simpa [hf] using h
  | none =>
    simp only [hf] at h
    simp only [h]
    rfl

theorem listPage_ok {items : List resource.Item} (h : s.listing resource filters = .ok items)
    {n : Nat} (hn : 1 ≤ n) : s.listPage resource filters n =
      .ok ⟨(items.drop ((n - 1) * s.pageSize)).take s.pageSize, n,
        pageCount s.pageSize items.length⟩ := by
  unfold listing at h
  unfold listPage
  cases hf : s.failureOf? resource filters with
  | some f =>
    rw [hf] at h
    cases h
  | none =>
    simp only [hf] at h
    simp only [h]
    change (cut s.pageSize items n).toExcept = _
    rw [cut_ok s.pageSize items hn]
    rfl

theorem listing_logged (requests : List Request) (resource : Resource) (filters : Filters) :
    (w.logged requests).platform.listing resource filters =
      w.platform.listing resource filters := by
  cases resource <;> rfl

theorem run_page (resource : Resource) (filters : Filters) (n : Nat) (w : World (Store τ) τ) :
    (Run.pagesOf resource filters n).run w =
      (w.platform.listPage resource filters n, w.logged [.listResources resource filters n]) := by
  cases resource <;> rfl

theorem run_mapM_pure {σ α : Type} (items : List α) (s : σ) :
    (items.mapM (pure : α → Act σ τ α)).run s = (.ok items, s) := by
  have h : items.mapM (pure : α → Act σ τ α) = pure (items.map id) := List.mapM_pure (f := id)
  rw [h, List.map_id]
  rfl

/-- The items from a page on are those of the page and those from the next one on. -/
theorem page_append_rest (size : Nat) (items : List α) {n : Nat} (hn : 1 ≤ n) :
    (items.drop ((n - 1) * size)).take size ++ items.drop (n * size) =
      items.drop ((n - 1) * size) := by
  obtain ⟨m, rfl⟩ := Nat.exists_eq_add_of_le hn
  rw [Nat.add_sub_cancel_left, Nat.add_mul, Nat.one_mul, Nat.add_comm, ← List.drop_drop,
    List.take_append_drop]

/-- Nothing is left after a last page. -/
theorem last_page_fits {size : Nat} (h : 0 < size) (items : List α) {n : Nat} (hn : 1 ≤ n)
    (last : pageCount size items.length ≤ n) :
    (items.drop ((n - 1) * size)).length ≤ size := by
  have hall := length_le_pages h items.length
  have hle := Nat.mul_le_mul_right size last
  obtain ⟨m, rfl⟩ := Nat.exists_eq_add_of_le hn
  simp only [List.length_drop, Nat.add_sub_cancel_left, Nat.add_mul, Nat.one_mul] at hle ⊢
  omega

/-- From any page on, a listing yields what no page before has shown, and asks for every page up to
the last one. -/
theorem run_traverse {items : List resource.Item} {size : Nat} (hpos : 0 < size) (fuel : Nat) {n : Nat}
    (hs : w.platform.pageSize = size) (h : w.platform.listing resource filters = .ok items)
    (hn : 1 ≤ n) (hf : max 1 (pageCount size items.length + 1 - n) ≤ fuel) :
    (Paging.traverse (Run.pagesOf resource filters) pure fuel n).run w =
      (.ok (items.drop ((n - 1) * size)),
        w.logged (pageRequests resource filters n
          (max 1 (pageCount size items.length + 1 - n)))) := by
  induction fuel generalizing n w with
  | zero => omega
  | succ fuel ih =>
    have hp := run_page resource filters n w
    rw [listPage_ok h hn, hs] at hp
    rw [Paging.traverse, run_bind_ok hp, run_bind_ok (run_mapM_pure _ _)]
    dsimp only
    by_cases more : n < pageCount size items.length
    · have hnext : (Page.mk ((items.drop ((n - 1) * size)).take size) n
          (pageCount size items.length)).hasNext = true := by simpa [Page.hasNext] using more
      have hrest := ih (n := n + 1) (w := w.logged [.listResources resource filters n]) hs
        ((listing_logged _ resource filters).trans h) (by omega) (by omega)
      have hcount : max 1 (pageCount size items.length + 1 - n) =
          max 1 (pageCount size items.length + 1 - (n + 1)) + 1 := by omega
      rw [hnext, if_pos rfl, run_bind_ok hrest, Nat.add_sub_cancel, hcount, logged_logged]
      change (Except.ok (_ ++ _), _) = _
      rw [page_append_rest size items hn]
      rfl
    · have hnext : (Page.mk ((items.drop ((n - 1) * size)).take size) n
          (pageCount size items.length)).hasNext = false := by simpa [Page.hasNext] using more
      have hcount : max 1 (pageCount size items.length + 1 - n) = 1 := by omega
      have hfits := last_page_fits hpos items hn (Nat.not_lt.mp more)
      rw [hnext, if_neg Bool.false_ne_true, hcount, List.take_of_length_le hfits]
      rfl

/-- A listing comes to all its items or to its failure, and leaves only the requests for its pages
behind. -/
theorem run_listAll (hpos : 0 < w.platform.pageSize)
    (hpatience : w.platform.pagesRead resource filters ≤ w.patience) :
    (Run.listAll resource filters).run w = (w.platform.listing resource filters,
      w.logged (pageRequests resource filters 1 (w.platform.pagesRead resource filters))) := by
  change (Paging.traverse (Run.pagesOf resource filters) pure w.patience 1).run w = _
  unfold pagesRead at hpatience ⊢
  cases h : w.platform.listing resource filters with
  | error failure =>
    rw [h] at hpatience
    obtain ⟨fuel, hfuel⟩ := Nat.exists_eq_add_of_le' hpatience
    have hp := run_page resource filters 1 w
    rw [listPage_error h] at hp
    rw [hfuel]
    exact run_bind_error hp
  | ok items =>
    rw [h] at hpatience
    have ht := run_traverse hpos w.patience rfl h (Nat.le_refl 1) hpatience
    rwa [Nat.sub_self, Nat.zero_mul, List.drop_zero, Nat.add_sub_cancel] at ht

theorem listAll_ends (hpos : 0 < w.platform.pageSize) (resource : Resource) (filters : Filters) :
    Ends (Run.listAll resource filters) w (w.platform.listing resource filters)
      (w.logged (pageRequests resource filters 1 (w.platform.pagesRead resource filters))) :=
  ⟨w.platform.pagesRead resource filters,
    fun n hn => run_listAll (w := { w with patience := n }) hpos hn⟩

theorem mem_of_traverse {all items : List resource.Item}
    (hall : w.platform.listing resource filters = .ok all) (fuel : Nat) {n : Nat}
    (before : List Request) {v : World (Store τ) τ} (hn : 1 ≤ n)
    (h : (Paging.traverse (Run.pagesOf resource filters) pure fuel n).run (w.logged before) =
      (.ok items, v)) : items ⊆ all := by
  induction fuel generalizing n before items with
  | zero => cases h
  | succ fuel ih =>
    have hp := run_page resource filters n (w.logged before)
    rw [listPage_ok ((listing_logged before resource filters).trans hall) hn, logged_logged] at hp
    rw [Paging.traverse, run_bind_ok hp, run_bind_ok (run_mapM_pure _ _)] at h
    dsimp only at h
    have hpage : ((all.drop ((n - 1) * (w.logged before).platform.pageSize)).take
        (w.logged before).platform.pageSize) ⊆ all :=
      ((List.take_sublist _ _).trans (List.drop_sublist _ _)).subset
    split at h
    · obtain ⟨rest, u, hrest, hout⟩ := run_bind_eq_ok h
      cases hout
      apply List.append_subset.mpr
      exact ⟨hpage, ih _ (by omega) hrest⟩
    · cases h
      exact hpage

/-- Whatever the patience, a listing that comes to something comes to what the platform holds. -/
theorem mem_of_listAll {items : List resource.Item} {v : World (Store τ) τ}
    (h : (Run.listAll resource filters).run w = (.ok items, v)) :
    ∃ all, w.platform.listing resource filters = .ok all ∧ items ⊆ all := by
  change (Paging.traverse (Run.pagesOf resource filters) pure w.patience 1).run w = _ at h
  cases hall : w.platform.listing resource filters with
  | ok all =>
    refine ⟨all, rfl, mem_of_traverse hall w.patience [] (v := v) (Nat.le_refl 1) ?_⟩
    rw [logged_nil]
    exact h
  | error failure =>
    have hp := run_page resource filters 1 w
    rw [listPage_error hall] at hp
    cases hfuel : w.patience with
    | zero =>
      rw [hfuel] at h
      cases h
    | succ fuel =>
      rw [hfuel, Paging.traverse, run_bind_error hp] at h
      cases h

/-- A page that bears an item is enough to take one. -/
theorem first_of_page {σ α : Type} {fetch : Fetch σ τ α} {fuel : Nat} {s t : σ} {p : Page α} {x : α}
    {rest : List α} (hp : (fetch 1).run s = (.ok p, t)) (hx : p.items = x :: rest) :
    (Paging.first fetch (fuel + 1)).run s = (.ok (some x), t) := by
  have hpull : (Cursor.start.pull fetch (fuel + 1)).run s =
      (.ok (some (x, ⟨rest, if p.hasNext then some 2 else none⟩)), t) := by
    rw [Cursor.start, Cursor.pull, run_bind_ok hp, Cursor.ofPage, hx, Cursor.pull]
    rfl
  rw [Paging.first, run_bind_ok hpull]
  rfl

/-- An only page without items ends a listing. -/
theorem first_of_no_page {σ α : Type} {fetch : Fetch σ τ α} {fuel : Nat} {s t : σ} {p : Page α}
    (hp : (fetch 1).run s = (.ok p, t)) (hx : p.items = []) (hl : p.hasNext = false) :
    (Paging.first fetch (fuel + 1)).run s = (.ok none, t) := by
  have hpull : (Cursor.start.pull fetch (fuel + 1)).run s = (.ok none, t) := by
    rw [Cursor.start, Cursor.pull, run_bind_ok hp, Cursor.ofPage, hx, hl, if_neg Bool.false_ne_true,
      Cursor.pull]
    rfl
  rw [Paging.first, run_bind_ok hpull]
  rfl

/-- The first item of a listing is on its first page; no other is asked for. -/
theorem run_listFirst (hpos : 0 < w.platform.pageSize) (hpatience : 1 ≤ w.patience) :
    (Run.listFirst resource filters).run w =
      ((w.platform.listing resource filters).map List.head?,
        w.logged (pageRequests resource filters 1 1)) := by
  change (Paging.first (Run.pagesOf resource filters) w.patience).run w = _
  obtain ⟨fuel, hfuel⟩ := Nat.exists_eq_add_of_le' hpatience
  have hp := run_page resource filters 1 w
  rw [hfuel]
  cases h : w.platform.listing resource filters with
  | error failure =>
    rw [listPage_error h] at hp
    exact run_bind_error (run_bind_error hp)
  | ok items =>
    rw [listPage_ok h (Nat.le_refl 1), Nat.sub_self, Nat.zero_mul, List.drop_zero] at hp
    cases items with
    | nil =>
      have hnone : pageCount w.platform.pageSize 0 = 0 := Nat.div_eq_of_lt (by omega)
      rw [List.take_nil, List.length_nil, hnone] at hp
      exact first_of_no_page hp rfl rfl
    | cons x rest =>
      obtain ⟨m, hm⟩ := Nat.exists_eq_add_of_le' hpos
      rw [hm, List.take_succ_cons] at hp
      exact first_of_page hp rfl

theorem listFirst_ends (hpos : 0 < w.platform.pageSize) (resource : Resource) (filters : Filters) :
    Ends (Run.listFirst resource filters) w
      ((w.platform.listing resource filters).map List.head?)
      (w.logged (pageRequests resource filters 1 1)) :=
  ⟨1, fun n hn => run_listFirst (w := { w with patience := n }) hpos hn⟩

end Store

end PlatformRoutes
