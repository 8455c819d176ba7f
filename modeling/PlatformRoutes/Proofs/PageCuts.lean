import Mathlib.Algebra.Order.Floor.Div
import PlatformRoutes.Proofs.Reachable

namespace PlatformRoutes.Store

section Pieces
variable {α : Type} {size length : ℕ} {items : List α}

/-- What stands on one page; pages are counted from one. -/
def piece (size : ℕ) (items : List α) (number : ℕ) : List α :=
  (items.drop ((number - 1) * size)).take size

/-- How many pages some items take. Nothing at all takes one. -/
def pagesFor (size length : ℕ) : ℕ := max 1 (length ⌈/⌉ size)

/-- What stands on all pages, in their order. -/
def pieces (size : ℕ) (items : List α) : List (List α) :=
  (List.range' 1 (pagesFor size items.length)).map (piece size items)

/-- A list cut into pieces of one size. Only the last may be shorter, and it is not empty unless
there was nothing to cut. -/
structure IsCut (size : ℕ) (items : List α) (cut : List (List α)) : Prop where
  whole : cut.flatten = items
  count : cut.length = pagesFor size items.length
  full : ∀ p ∈ cut.dropLast, p.length = size
  last : ∀ p, cut.getLast? = some p → p.length ≤ size ∧ (p = [] → items = [])

theorem pageCount_eq_ceilDiv (size length : ℕ) : pageCount size length = length ⌈/⌉ size := by
  rw [Nat.ceilDiv_eq_add_pred_div]
  rfl

theorem pagesFor_of_le (hpos : 0 < size) (h : length ≤ size) : pagesFor size length = 1 := by
  have hone : length ⌈/⌉ size ≤ 1 := by
    rw [ceilDiv_le_iff_le_mul hpos]
    simpa using h
  exact max_eq_left hone

/-- More items than one page has take one page more than those that it leaves over. -/
theorem pagesFor_of_lt (hpos : 0 < size) (h : size < length) :
    pagesFor size length = pagesFor size (length - size) + 1 := by
  obtain ⟨m, rfl⟩ := Nat.exists_eq_add_of_lt h
  have hall : size + m + 1 + size - 1 = m + size + size := by omega
  have hrest : size + m + 1 - size + size - 1 = m + size := by omega
  have hsome : 1 ≤ (m + size) / size := by
    rw [Nat.add_div_right m hpos]
    exact Nat.le_add_left 1 _
  simp only [pagesFor, Nat.ceilDiv_eq_add_pred_div]
  rw [hall, hrest, Nat.add_div_right (m + size) hpos, max_eq_right hsome]
  exact max_eq_right (Nat.le_add_left 1 _)

theorem pieces_of_le (hpos : 0 < size) (h : items.length ≤ size) : pieces size items = [items] := by
  simp [pieces, pagesFor_of_le hpos h, piece, List.take_of_length_le h]

theorem piece_drop (size : ℕ) (items : List α) {number : ℕ} (h : 1 ≤ number) :
    piece size items (1 + number) = piece size (items.drop size) number := by
  obtain ⟨m, rfl⟩ := Nat.exists_eq_add_of_le h
  have hsum : (1 + (1 + m) - 1) * size = size + (1 + m - 1) * size := by
    rw [Nat.add_sub_cancel_left, Nat.add_sub_cancel_left, Nat.add_mul, Nat.one_mul]
  rw [piece, piece, hsum, List.drop_drop]

theorem pieces_of_lt (hpos : 0 < size) (h : size < items.length) :
    pieces size items = items.take size :: pieces size (items.drop size) := by
  have hfirst : piece size items 1 = items.take size := by simp [piece]
  have hrest : (List.range' (1 + 1) (pagesFor size (items.length - size))).map (piece size items) =
      pieces size (items.drop size) := by
    rw [← List.map_add_range', List.map_map, pieces, List.length_drop]
    apply List.map_congr_left
    intro number hnumber
    exact piece_drop size items (List.left_le_of_mem_range' hnumber)
  rw [pieces, pagesFor_of_lt hpos h, List.range'_succ, List.map_cons, hfirst, hrest]

/-- A first full page before a cut of the rest. -/
theorem IsCut.cons {cut : List (List α)} (hpos : 0 < size) (h : size < items.length)
    (hrest : IsCut size (items.drop size) cut) : IsCut size items (items.take size :: cut) := by
  have hne : cut ≠ [] := by
    intro hnil
    have hcount := hrest.count
    rw [hnil] at hcount
    exact absurd hcount (Nat.ne_of_lt (Nat.le_max_left 1 _))
  refine ⟨?whole, ?count, ?full, ?last⟩
  case whole => rw [List.flatten_cons, hrest.whole, List.take_append_drop]
  case count =>
    rw [List.length_cons, hrest.count, List.length_drop, pagesFor_of_lt hpos h]
  case full =>
    intro p hp
    rw [List.dropLast_cons_of_ne_nil hne] at hp
    rcases List.mem_cons.mp hp with rfl | hp
    · exact List.length_take_of_le (Nat.le_of_lt h)
    · exact hrest.full p hp
  case last =>
    intro p hp
    rw [List.getLast?_cons_of_ne_nil hne] at hp
    obtain ⟨hfits, hempty⟩ := hrest.last p hp
    refine ⟨hfits, fun hnil => ?_⟩
    -- The rest is not empty, so neither is its last page.
    have hdrop : (items.drop size).length = 0 := by rw [hempty hnil, List.length_nil]
    rw [List.length_drop] at hdrop
    omega

/-- The pages are such a cut, by induction on what the pages before have not shown. -/
theorem isCut_pieces (hpos : 0 < size) (items : List α) : IsCut size items (pieces size items) := by
  induction hlength : items.length using Nat.strong_induction_on generalizing items with
  | _ length ih =>
    by_cases h : items.length ≤ size
    · rw [pieces_of_le hpos h]
      refine ⟨List.flatten_singleton, (pagesFor_of_le hpos h).symm, ?_, ?_⟩
      · simp
      · intro p hp
        cases hp
        exact ⟨h, id⟩
    · have hlt : size < items.length := Nat.lt_of_not_le h
      rw [pieces_of_lt hpos hlt]
      refine IsCut.cons hpos hlt (ih _ ?_ _ rfl)
      rw [← hlength, List.length_drop]
      omega

/-- The pages of a listing. -/
def pages (size : ℕ) (items : List α) : List (Page α) :=
  (List.range' 1 (pagesFor size items.length)).map fun number =>
    ⟨piece size items number, number, (items.length ⌈/⌉ size : ℕ)⟩

theorem map_items_pages (size : ℕ) (items : List α) :
    (pages size items).map Page.items = pieces size items := by
  rw [pages, List.map_map]
  rfl

theorem length_pages (size : ℕ) (items : List α) :
    (pages size items).length = pagesFor size items.length := by
  simp [pages]

theorem getElem?_pages {i : ℕ} {p : Page α}
    (h : (pages size items)[i]? = some p) : i < (pages size items).length ∧
      p = ⟨piece size items (i + 1), (i + 1 : ℕ), (items.length ⌈/⌉ size : ℕ)⟩ := by
  obtain ⟨hi, hp⟩ := List.getElem?_eq_some_iff.mp h
  refine ⟨hi, ?_⟩
  simp [pages, Nat.add_comm 1 i] at hp
  exact hp.symm

end Pieces

variable {τ : Type} {w : World (Store τ) τ} {resource : Resource} {filters : Filters}
  {items : List resource.Item}

theorem listing_of_calm (selected : w.platform.select resource filters = .ok items)
    (calm : w.platform.failureOf? resource filters = none) :
    w.platform.listing resource filters = .ok items := by
  rw [listing, calm]
  exact selected

theorem listing_of_failure {failure : Failure τ}
    (h : w.platform.failureOf? resource filters = some failure) :
    w.platform.listing resource filters = .error failure := by
  rw [listing, h]

/-- What a page shows that is asked for after others. -/
theorem run_page_ok (h : w.platform.listing resource filters = .ok items) (before : List Request)
    {number : ℕ} (hnumber : 1 ≤ number) :
    ((Run.pagesOf resource filters number).run (w.logged before)).1 =
      .ok ⟨piece w.platform.pageSize items number, number,
        (items.length ⌈/⌉ w.platform.pageSize : ℕ)⟩ := by
  have hlisting := (listing_logged before resource filters).trans h
  rw [run_page, listPage_ok hlisting hnumber, ← pageCount_eq_ceilDiv]
  rfl

/-- A listing whose selection goes well comes to the selection, unless a failure was set up for it,
which shows on its first page. The pages that it asks for are those that the selection takes, each
once and in order. What they show is the selection cut into pieces, and only the last says that
there is no next. -/
theorem listing_cut (paged : 0 < w.platform.pageSize)
    (selected : w.platform.select resource filters = .ok items) :
    match w.platform.failureOf? resource filters with
    | some failure => Ends (Run.listAll resource filters) w (.error failure)
        (w.logged (pageRequests resource filters 1 1))
    | none =>
      Ends (Run.listAll resource filters) w (.ok items)
        (w.logged (pageRequests resource filters 1 (pagesFor w.platform.pageSize items.length))) ∧
      ∃ pages : List (Page resource.Item),
        IsCut w.platform.pageSize items (pages.map Page.items) ∧
        ∀ i p, pages[i]? = some p →
          ((Run.pagesOf resource filters (i + 1)).run
            (w.logged (pageRequests resource filters 1 i))).1 = .ok p ∧
          p.page = (i + 1 : ℕ) ∧ (p.hasNext = true ↔ i + 1 < pages.length) := by
  have hends := listAll_ends paged resource filters
  unfold pagesRead at hends
  cases hfailure : w.platform.failureOf? resource filters with
  | some failure =>
    rw [listing_of_failure hfailure] at hends
    exact hends
  | none =>
    have hlisting := listing_of_calm selected hfailure
    rw [hlisting] at hends
    dsimp only at hends
    rw [pageCount_eq_ceilDiv] at hends
    refine ⟨hends, pages w.platform.pageSize items, ?_, ?_⟩
    · rw [map_items_pages]
      exact isCut_pieces paged items
    · intro i p hp
      obtain ⟨hi, rfl⟩ := getElem?_pages hp
      refine ⟨run_page_ok hlisting _ (Nat.le_add_left 1 i), rfl, ?_⟩
      rw [length_pages, pagesFor] at hi ⊢
      simp only [Page.hasNext, decide_eq_true_eq]
      omega

/-- Five organizations on pages of two, whose spaces cannot be listed. -/
def fiveOrganizations : World (Store ℚ) ℚ where
  platform := ({ pageSize := 2, substringFilters := false } : Store ℚ).filled
    [.organization "a", .organization "b", .organization "c", .organization "d", .organization "e",
      .listFailure .organizationSpaces (.disconnected "reset") []]
  clock := 0
  fetchCost := 0
  cancelAt := none
  sleeps := []
  events := []
  patience := 0

/-- They take three pages, and the last of them is not full. -/
theorem listing_cut_odd :
    0 < fiveOrganizations.platform.pageSize ∧
      ∃ items : List Ref, fiveOrganizations.platform.select .organizations [] = .ok items ∧
        items.map (·.name) = ["a", "b", "c", "d", "e"] ∧
        Ends (Run.listAll .organizations []) fiveOrganizations (.ok items)
          (fiveOrganizations.logged [.listResources .organizations [] 1,
            .listResources .organizations [] 2, .listResources .organizations [] 3]) ∧
        ∃ cut, cut.length = 3 ∧ IsCut 2 items cut := by
  have paged : 0 < fiveOrganizations.platform.pageSize := by decide
  obtain ⟨items, selected, hnames⟩ : ∃ items : List Ref,
      fiveOrganizations.platform.select .organizations [] = .ok items ∧
        items.map (·.name) = ["a", "b", "c", "d", "e"] := ⟨_, rfl, by decide +kernel⟩
  have hlength : items.length = 5 := by simpa using congrArg List.length hnames
  have hcount : pagesFor 2 items.length = 3 := by
    rw [hlength]
    decide
  obtain ⟨hends, pages, hcut, -⟩ := listing_cut paged selected
  have hpages : pagesFor fiveOrganizations.platform.pageSize items.length = 3 := hcount
  rw [hpages] at hends
  exact ⟨paged, items, selected, hnames, hends, _, hcut.count.trans hcount, hcut⟩

end PlatformRoutes.Store
