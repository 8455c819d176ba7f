import Mathlib.Data.Nat.Find
import PlatformRoutes.Proofs.Listing

namespace PlatformRoutes

namespace Paging

variable {τ α : Type} {page : Nat → Except (Failure τ) (Page α)} {fuel c k m : Nat}

/-- Fetches pages that are what they are, and notes the number of each page asked for. -/
def noting (page : Nat → Except (Failure τ) (Page α)) : Fetch (List Nat) τ α :=
  fun number asked => (page number, asked ++ [number])

/-- A page that fails has no items. -/
def itemsOf (page : Nat → Except (Failure τ) (Page α)) (number : Nat) : List α :=
  match page number with
  | .ok p => p.items
  | .error _ => []

/-- A page that fails has none after it. -/
def goesOn (page : Nat → Except (Failure τ) (Page α)) (number : Nat) : Bool :=
  match page number with
  | .ok p => p.hasNext
  | .error _ => false

/-- The items of the first pages, in order. -/
def upTo (page : Nat → Except (Failure τ) (Page α)) (count : Nat) : List α :=
  (List.range' 1 count).flatMap (itemsOf page)

/-- The listing does not end before a page. -/
def Reached (page : Nat → Except (Failure τ) (Page α)) (number : Nat) : Prop :=
  ∀ n < number, 1 ≤ n → goesOn page n = true

/-- The first page that has none after it, or that fails. -/
structure EndsAt (page : Nat → Except (Failure τ) (Page α)) (number : Nat) : Prop where
  pos : 1 ≤ number
  reached : Reached page number
  last : goesOn page number = false

/-- The first so many pages hold so many items, and no fewer pages do, so that the last of the pages
is the one with the last of the items. Empty pages on the way count. -/
structure Holds (page : Nat → Except (Failure τ) (Page α)) (items pages : Nat) : Prop where
  reached : Reached page pages
  enough : items ≤ (upTo page pages).length
  least : ∀ n < pages, (upTo page n).length < items

theorem upTo_succ (page : Nat → Except (Failure τ) (Page α)) (k : Nat) :
    upTo page (k + 1) = upTo page k ++ itemsOf page (k + 1) := by
  rw [upTo, List.range'_1_concat, List.flatMap_append, Nat.add_comm 1 k, List.flatMap_singleton]
  rfl

theorem upTo_isPrefix (page : Nat → Except (Failure τ) (Page α)) (h : k ≤ m) :
    upTo page k <+: upTo page m := by
  obtain ⟨n, rfl⟩ := Nat.exists_eq_add_of_le h
  clear h
  induction n with
  | zero => exact List.prefix_rfl
  | succ n ih =>
    rw [← Nat.add_assoc, upTo_succ]
    exact ih.trans (List.prefix_append _ _)

theorem length_upTo_le (page : Nat → Except (Failure τ) (Page α)) (h : k ≤ m) :
    (upTo page k).length ≤ (upTo page m).length :=
  (upTo_isPrefix page h).length_le

/-- An item of some page stays where it is among the items of further pages. -/
theorem drop_upTo {x : α} (h : k ≤ m) (hx : (upTo page k)[c]? = some x) :
    (upTo page m).drop c = x :: (upTo page m).drop (c + 1) := by
  obtain ⟨hlt, rfl⟩ := List.getElem?_eq_some_iff.mp hx
  have hitem := List.prefix_iff_getElem?.mp (upTo_isPrefix page h) c hlt
  obtain ⟨hlt, hitem⟩ := List.getElem?_eq_some_iff.mp hitem
  rw [List.drop_eq_getElem_cons hlt, hitem]

theorem take_upTo (h : k ≤ m) (hc : c ≤ (upTo page k).length) :
    (upTo page k).take c = (upTo page m).take c := by
  obtain ⟨rest, hrest⟩ := upTo_isPrefix page h
  rw [← hrest, List.take_append_of_le_length hc]

theorem items_append_drop (h : k < m) :
    itemsOf page (k + 1) ++ (upTo page m).drop (upTo page (k + 1)).length =
      (upTo page m).drop (upTo page k).length := by
  obtain ⟨rest, hrest⟩ := upTo_isPrefix page (Nat.succ_le_of_lt h)
  rw [← hrest, List.drop_left, Nat.succ_eq_add_one, upTo_succ, List.append_assoc, List.drop_left]

theorem upTo_of_error {f : Failure τ} (h : page (k + 1) = .error f) :
    upTo page (k + 1) = upTo page k := by
  rw [upTo_succ, itemsOf, h, List.append_nil]

theorem Reached.mono (h : Reached page m) (hle : k ≤ m) : Reached page k :=
  fun n hn => h n (by omega)

/-- Of the pages up to one that is reached, only that one can fail. -/
theorem Reached.eq_of_error {f : Failure τ} (h : Reached page m) (hlt : k < m)
    (hpage : page (k + 1) = .error f) : k + 1 = m := by
  by_contra hne
  have hgoes := h (k + 1) (by omega) (by omega)
  rw [goesOn, hpage] at hgoes
  cases hgoes

theorem EndsAt.le_of_reached (h : EndsAt page m) (hk : Reached page k) : k ≤ m := by
  by_contra hlt
  have hgoes := hk m (by omega) h.pos
  rw [h.last] at hgoes
  cases hgoes

/-- Where there are so many items, some page holds the last of them. -/
theorem exists_holds (h : Reached page m) (hitems : c ≤ (upTo page m).length) :
    ∃ k ≤ m, Holds page c k := by
  classical
  have hsome : ∃ n, c ≤ (upTo page n).length := ⟨m, hitems⟩
  have hle := Nat.find_min' hsome hitems
  refine ⟨Nat.find hsome, hle, h.mono hle, Nat.find_spec hsome, fun n hn => ?_⟩
  have hfew := Nat.find_min hsome hn
  omega

theorem Holds.le_of_enough (h : Holds page c k) (hitems : c ≤ (upTo page m).length) : k ≤ m := by
  by_contra hlt
  have hfew := h.least m (by omega)
  omega

theorem holds_zero (page : Nat → Except (Failure τ) (Page α)) : Holds page 0 0 where
  reached := fun n hn => absurd hn (Nat.not_lt_zero n)
  enough := Nat.zero_le _
  least := fun n hn => absurd hn (Nat.not_lt_zero n)

/-- No page fails up to the one that holds an item. -/
theorem Holds.page_ok (h : Holds page c m) (hlt : k < m) : ∃ p, page (k + 1) = .ok p := by
  cases hpage : page (k + 1) with
  | ok p => exact ⟨p, rfl⟩
  | error f =>
    -- The failing page would be the last one, and adds no item to those before it.
    obtain rfl := h.reached.eq_of_error hlt hpage
    have henough := h.enough
    have hfew := h.least k hlt
    rw [upTo_of_error hpage] at henough
    omega

/-- The page that is asked for once the items of the first so many are taken. -/
def pageAfter (page : Nat → Except (Failure τ) (Page α)) : Nat → Option Nat
  | 0 => some 1
  | k + 1 => if goesOn page (k + 1) then some (k + 2) else none

/-- The place in a listing once some items are taken and some pages asked for. -/
def place (page : Nat → Except (Failure τ) (Page α)) (items pages : Nat) : Cursor α :=
  ⟨(upTo page pages).drop items, pageAfter page pages⟩

theorem start_eq_place (page : Nat → Except (Failure τ) (Page α)) : Cursor.start = place page 0 0 :=
  rfl

theorem pageAfter_of_reached (h : Reached page m) (hlt : k < m) :
    pageAfter page k = some (k + 1) := by
  cases k with
  | zero => rfl
  | succ k => rw [pageAfter, if_pos (h (k + 1) hlt (by omega))]

theorem EndsAt.pageAfter_eq_none (h : EndsAt page m) : pageAfter page m = none := by
  obtain ⟨k, rfl⟩ := Nat.exists_eq_add_of_le' h.pos
  rw [pageAfter, h.last, if_neg Bool.false_ne_true]

/-- The place at the head of a page, all items before it taken. -/
theorem ofPage_eq_place {p : Page α} (hpage : page (k + 1) = .ok p)
    (hc : c = (upTo page k).length) : Cursor.ofPage p (k + 1) = place page c (k + 1) := by
  rw [place, upTo_succ, hc, List.drop_left, itemsOf, hpage, pageAfter, goesOn, hpage]
  rfl

theorem run_noting {r : Except (Failure τ) (Page α)} (h : page k = r) (asked : List Nat) :
    (noting page k).run asked = (r, asked ++ [k]) := congrArg (·, asked ++ [k]) h

/-- An item at hand is taken without a request. -/
theorem pull_at_hand (h : c < (upTo page k).length) (asked : List Nat) :
    ∃ x, (upTo page k)[c]? = some x ∧
      ((place page c k).pull (noting page) fuel).run asked =
        (.ok (some (x, place page (c + 1) k)), asked ++ List.range' (k + 1) (k - k)) := by
  refine ⟨_, List.getElem?_eq_getElem h, ?_⟩
  rw [place, List.drop_eq_getElem_cons h, Cursor.pull, Nat.sub_self, List.range'_zero,
    List.append_nil]
  rfl

/-- Once its pages are drained, a listing that goes on asks for one more. -/
theorem pull_of_page {p : Page α} (hc : c = (upTo page k).length)
    (hnext : pageAfter page k = some (k + 1)) (hpage : page (k + 1) = .ok p) (asked : List Nat) :
    ((place page c k).pull (noting page) (fuel + 1)).run asked =
      ((place page c (k + 1)).pull (noting page) fuel).run (asked ++ [k + 1]) := by
  rw [place, hnext, hc, List.drop_length, Cursor.pull, run_bind_ok (run_noting hpage asked),
    ofPage_eq_place hpage rfl]

theorem pull_of_error {f : Failure τ} (hc : c = (upTo page k).length)
    (hnext : pageAfter page k = some (k + 1)) (hpage : page (k + 1) = .error f)
    (asked : List Nat) :
    ((place page c k).pull (noting page) (fuel + 1)).run asked =
      (.error f, asked ++ [k + 1]) := by
  rw [place, hnext, hc, List.drop_length, Cursor.pull, run_bind_error (run_noting hpage asked)]

/-- A listing without a page after its last one has ended. -/
theorem pull_at_end {p : Page α} (h : EndsAt page m) (hpage : page m = .ok p)
    (hc : c = (upTo page m).length) (asked : List Nat) :
    ((place page c m).pull (noting page) fuel).run asked =
      ((page m).map fun _ => none, asked ++ List.range' (m + 1) (m - m)) := by
  rw [place, h.pageAfter_eq_none, hc, List.drop_length, Cursor.pull, hpage, Nat.sub_self,
    List.range'_zero, List.append_nil]
  rfl

/-- Pages asked for up to some page, and then the ones from there on. -/
theorem asked_through {n : Nat} (asked : List Nat) (hk : k ≤ n) (hn : n ≤ m) :
    (asked ++ List.range' (k + 1) (n - k)) ++ List.range' (n + 1) (m - n) =
      asked ++ List.range' (k + 1) (m - k) := by
  have happend := List.range'_append_1 (s := k + 1) (m := n - k) (n := m - n)
  rw [show k + 1 + (n - k) = n + 1 by omega, show n - k + (m - n) = m - k by omega] at happend
  rw [List.append_assoc, happend]

theorem asked_from (asked : List Nat) (h : k < m) :
    (asked ++ [k + 1]) ++ List.range' (k + 1 + 1) (m - (k + 1)) =
      asked ++ List.range' (k + 1) (m - k) := by
  have hthrough := asked_through asked (Nat.le_succ k) h
  rwa [Nat.succ_eq_add_one, Nat.add_sub_cancel_left] at hthrough

/-- The next item is found on the page that holds it, and each page on the way there is asked for
once. -/
theorem pull_found (h : Holds page (c + 1) m) (hk : k ≤ m) (hc : c ≤ (upTo page k).length)
    (hfuel : m - k ≤ fuel) (asked : List Nat) :
    ∃ x, (upTo page m)[c]? = some x ∧
      ((place page c k).pull (noting page) fuel).run asked =
        (.ok (some (x, place page (c + 1) m)), asked ++ List.range' (k + 1) (m - k)) := by
  -- On the way the pages asked for grow and the items taken stay: each page before the last one is
  -- drained as soon as it is there.
  induction fuel generalizing k asked with
  | zero =>
    obtain rfl : k = m := by omega
    exact pull_at_hand h.enough asked
  | succ fuel ih =>
    rcases Nat.eq_or_lt_of_le hk with rfl | hlt
    · exact pull_at_hand h.enough asked
    · have hdrained : c = (upTo page k).length := by
        have hfew := h.least k hlt
        omega
      obtain ⟨p, hpage⟩ := h.page_ok hlt
      have hmore := length_upTo_le page (Nat.le_succ k)
      rw [pull_of_page hdrained (pageAfter_of_reached h.reached hlt) hpage, ← asked_from asked hlt]
      exact ih hlt (Nat.le_trans hc hmore) (by omega) _

/-- Without an item to come, the pages are asked for up to the last one, which ends the listing or
fails. -/
theorem pull_to_end (h : EndsAt page m) (hk : k ≤ m) (hlast : k = m → ∃ p, page m = .ok p)
    (hc : c ≤ (upTo page k).length) (hall : (upTo page m).length ≤ c) (hfuel : m - k ≤ fuel)
    (asked : List Nat) :
    ((place page c k).pull (noting page) fuel).run asked =
      ((page m).map fun _ => none, asked ++ List.range' (k + 1) (m - k)) := by
  induction fuel generalizing k asked with
  | zero =>
    obtain rfl : k = m := by omega
    obtain ⟨p, hpage⟩ := hlast rfl
    exact pull_at_end h hpage (Nat.le_antisymm hc hall) asked
  | succ fuel ih =>
    rcases Nat.eq_or_lt_of_le hk with rfl | hlt
    · obtain ⟨p, hpage⟩ := hlast rfl
      exact pull_at_end h hpage (Nat.le_antisymm hc hall) asked
    · have hdrained : c = (upTo page k).length := by
        have hfewer := length_upTo_le page hk
        omega
      have hnext := pageAfter_of_reached h.reached hlt
      cases hpage : page (k + 1) with
      | ok p =>
        have hmore := length_upTo_le page (Nat.le_succ k)
        rw [pull_of_page hdrained hnext hpage, ← asked_from asked hlt]
        refine ih hlt ?_ (Nat.le_trans hc hmore) (by omega) _
        rintro rfl
        exact ⟨p, hpage⟩
      | error f =>
        obtain rfl := h.reached.eq_of_error hlt hpage
        rw [pull_of_error hdrained hnext hpage, hpage, Nat.add_sub_cancel_left]
        rfl

section Take

variable {σ : Type} {fetch : Fetch σ τ α} {cursor next : Cursor α} {s t : σ} {count : Nat}

theorem take_of_found {x : α} (h : (cursor.pull fetch fuel).run s = (.ok (some (x, next)), t)) :
    (take fetch fuel (count + 1) cursor).run s =
      ((x :: ((take fetch fuel count next).run t).1.1, ((take fetch fuel count next).run t).1.2),
        ((take fetch fuel count next).run t).2) := by
  have hrun : StateT.run (cursor.pull fetch fuel).run s = (.ok (some (x, next)), t) := h
  rw [take, StateT.run_bind, hrun]
  rfl

/-- How taking items goes on once there are none left: the last page ended the listing, or it
failed. -/
def endOf : Except (Failure τ) (Page α) → Taken τ
  | .ok _ => .ended
  | .error f => .failed f

theorem take_of_end {r : Except (Failure τ) (Page α)}
    (h : (cursor.pull fetch fuel).run s = (r.map fun _ => none, t)) :
    (take fetch fuel (count + 1) cursor).run s = (([], endOf r), t) := by
  have hrun : StateT.run (cursor.pull fetch fuel).run s = (r.map fun _ => none, t) := h
  rw [take, StateT.run_bind, hrun]
  cases r <;> rfl

end Take

/-- Taking items that there are goes as far as the page of the last one. -/
theorem take_found {count : Nat} (hk : Holds page c k) (h : Holds page (c + count) m)
    (hfuel : m ≤ fuel) (asked : List Nat) :
    (take (noting page) fuel count (place page c k)).run asked =
      ((((upTo page m).drop c).take count, .enough), asked ++ List.range' (k + 1) (m - k)) := by
  induction count generalizing c k asked with
  | zero =>
    obtain rfl : k = m := Nat.le_antisymm (hk.le_of_enough h.enough) (h.le_of_enough hk.enough)
    rw [Nat.sub_self, List.range'_zero, List.append_nil]
    rfl
  | succ count ih =>
    -- The next item is on a page of its own, from which the other ones are taken.
    have hall := h.enough
    obtain ⟨n, hn, hholds⟩ := exists_holds (c := c + 1) h.reached (by omega)
    have hle : k ≤ n := hk.le_of_enough (Nat.le_of_succ_le hholds.enough)
    have hpages : n - k ≤ fuel := by omega
    obtain ⟨x, hx, hpull⟩ := pull_found hholds hle hk.enough hpages asked
    have hcount : c + 1 + count = c + (count + 1) := by omega
    rw [take_of_found hpull, ih hholds (by rwa [hcount]) _, asked_through asked hle hn,
      drop_upTo hn hx, List.take_succ_cons]

/-- Taking more items than there are goes as far as the last page and keeps them all. -/
theorem take_to_end {count : Nat} (hk : Holds page c k) (h : EndsAt page m)
    (hfew : (upTo page m).length < c + count) (hfuel : m ≤ fuel) (asked : List Nat) :
    (take (noting page) fuel count (place page c k)).run asked =
      (((upTo page m).drop c, endOf (page m)), asked ++ List.range' (k + 1) (m - k)) := by
  induction count generalizing c k asked with
  | zero =>
    have hle := length_upTo_le page (h.le_of_reached hk.reached)
    have henough := hk.enough
    omega
  | succ count ih =>
    have hle := h.le_of_reached hk.reached
    rcases Nat.lt_or_ge c (upTo page m).length with hlt | hall
    · obtain ⟨n, hn, hholds⟩ := exists_holds (c := c + 1) h.reached hlt
      have hbefore : k ≤ n := hk.le_of_enough (Nat.le_of_succ_le hholds.enough)
      have hpages : n - k ≤ fuel := by omega
      obtain ⟨x, hx, hpull⟩ := pull_found hholds hbefore hk.enough hpages asked
      rw [take_of_found hpull, ih hholds (by omega) _, asked_through asked hbefore hn,
        drop_upTo hn hx]
    · -- A last page that failed would hold no item, so it cannot have been asked for already.
      have hlast : k = m → ∃ p, page m = .ok p := by
        rintro rfl
        obtain ⟨n, rfl⟩ := Nat.exists_eq_add_of_le' h.pos
        exact hk.page_ok (Nat.lt_succ_self n)
      rw [take_of_end (pull_to_end h hle hlast hk.enough hall (by omega) asked),
        List.drop_eq_nil_of_le hall]

/-- From any page on, a listing is collected up to its last page, or fails where that does. -/
theorem traverse_to_end (h : EndsAt page m) (hk : k < m) (hfuel : m - k ≤ fuel)
    (asked : List Nat) :
    (traverse (noting page) pure fuel (k + 1)).run asked =
      ((page m).map fun _ => (upTo page m).drop (upTo page k).length,
        asked ++ List.range' (k + 1) (m - k)) := by
  induction fuel generalizing k asked with
  | zero => omega
  | succ fuel ih =>
    cases hpage : page (k + 1) with
    | error f =>
      obtain rfl := h.reached.eq_of_error hk hpage
      rw [traverse, run_bind_error (run_noting hpage asked), hpage, Nat.add_sub_cancel_left]
      rfl
    | ok p =>
      have hgoes : goesOn page (k + 1) = p.hasNext := by rw [goesOn, hpage]
      have hitems : itemsOf page (k + 1) = p.items := by rw [itemsOf, hpage]
      rw [traverse, run_bind_ok (run_noting hpage asked),
        run_bind_ok (Store.run_mapM_pure _ _), ← hgoes]
      rcases Nat.eq_or_lt_of_le (Nat.succ_le_of_lt hk) with rfl | hlt
      · rw [Nat.succ_eq_add_one, h.last, if_neg Bool.false_ne_true, hpage, upTo_succ,
          List.drop_left, hitems, Nat.add_sub_cancel_left]
        rfl
      · rw [h.reached (k + 1) hlt (by omega), if_pos rfl,
          run_return (ih hlt (by omega) (asked ++ [k + 1])), asked_from asked hk,
          ← items_append_drop hk, hitems]
        cases page m <;> rfl

/-- Taking items one by one yields the first of them in the order of the pages and asks for pages in
their order, each once, up to the one that holds the last item taken. Taking more than there are
asks for all pages and then ends, or fails where the last page does. Collecting a listing comes to
all its items or to that failure, and looking for its first item asks for no page after the one that
holds it. -/
theorem paging_exact (page : Nat → Except (Failure τ) (Page α)) (count : Nat) (asked : List Nat) :
    (∀ m, Reached page m → count ≤ (upTo page m).length →
      ∃ k ≤ m, Holds page count k ∧ (upTo page k).take count = (upTo page m).take count) ∧
    (∀ k, Holds page count k → ∀ fuel, k ≤ fuel →
      (take (noting page) fuel count .start).run asked =
        (((upTo page k).take count, .enough), asked ++ List.range' 1 k)) ∧
    (∀ m, EndsAt page m → (upTo page m).length < count → ∀ fuel, m ≤ fuel →
      (take (noting page) fuel count .start).run asked =
        ((upTo page m, endOf (page m)), asked ++ List.range' 1 m)) ∧
    (∀ m f, EndsAt page m → page m = .error f → upTo page m = upTo page (m - 1)) ∧
    (∀ m, EndsAt page m → ∀ fuel, m ≤ fuel →
      (collect (noting page) fuel).run asked =
        ((page m).map fun _ => upTo page m, asked ++ List.range' 1 m)) ∧
    (∀ k, Holds page 1 k → ∀ fuel, k ≤ fuel →
      (first (noting page) fuel).run asked =
        (.ok (upTo page k).head?, asked ++ List.range' 1 k)) ∧
    ∀ m, EndsAt page m → upTo page m = [] → ∀ fuel, m ≤ fuel →
      (first (noting page) fuel).run asked =
        ((page m).map fun _ => none, asked ++ List.range' 1 m) := by
  have hstart := holds_zero page
  refine ⟨fun m hreached henough => ?_, fun k hholds fuel hfuel => ?_,
    fun m hend hfew fuel hfuel => ?_, fun m f hend hpage => ?_, fun m hend fuel hfuel => ?_,
    fun k hholds fuel hfuel => ?_, fun m hend hnone fuel hfuel => ?_⟩
  · obtain ⟨k, hk, hholds⟩ := exists_holds hreached henough
    exact ⟨k, hk, hholds, take_upTo hk hholds.enough⟩
  · have hcount : Holds page (0 + count) k := by rwa [Nat.zero_add]
    exact take_found hstart hcount hfuel asked
  · exact take_to_end hstart hend (by omega) hfuel asked
  · obtain ⟨n, rfl⟩ := Nat.exists_eq_add_of_le' hend.pos
    exact upTo_of_error hpage
  · exact traverse_to_end hend hend.pos hfuel asked
  · obtain ⟨x, hx, hpull⟩ := pull_found hholds (Nat.zero_le k) hstart.enough hfuel asked
    rw [List.head?_eq_getElem?, hx]
    exact run_return hpull (Option.map Prod.fst)
  · have hlast : 0 = m → ∃ p, page m = .ok p := by
      rintro rfl
      exact absurd hend.pos (Nat.not_succ_le_zero 0)
    have hpull := pull_to_end hend (Nat.zero_le m) hlast hstart.enough (by rw [hnone]; rfl) hfuel
      asked
    have hfirst := run_return hpull (Option.map Prod.fst)
    rw [first, start_eq_place page, hfirst]
    cases page m <;> rfl

/-- A listing with an empty page in it, whose fourth page fails. Its pages number themselves as they
please. -/
def ledger : Nat → Except (Failure Nat) (Page Nat)
  | 1 => .ok ⟨[10, 20], 1, 3⟩
  | 2 => .ok ⟨[], 5, 9⟩
  | 3 => .ok ⟨[30], 2, 4⟩
  | _ => .error (.noAnswer "ledger")

/-- The third item takes three pages, and one item more takes the page that fails. -/
theorem paging_exact_ledger :
    (take (noting ledger) 9 3 .start).run [] = (([10, 20, 30], .enough), [1, 2, 3]) ∧
      (take (noting ledger) 9 4 .start).run [] =
        (([10, 20, 30], .failed (.noAnswer "ledger")), [1, 2, 3, 4]) ∧
      (collect (noting ledger) 9).run [] = (.error (.noAnswer "ledger"), [1, 2, 3, 4]) ∧
      (first (noting ledger) 9).run [] = (.ok (some 10), [1]) := by
  have hreached : Reached ledger 4 := by
    unfold Reached
    decide
  have hend : EndsAt ledger 4 := ⟨by decide, hreached, by decide⟩
  obtain ⟨-, hthree, -⟩ := paging_exact ledger 3 []
  obtain ⟨-, -, hmore, -, hcollect, hfirst, -⟩ := paging_exact ledger 4 []
  exact ⟨hthree 3 ⟨hreached.mono (by decide), by decide, by decide⟩ 9 (by decide),
    hmore 4 hend (by decide) 9 (by decide), hcollect 4 hend 9 (by decide),
    hfirst 1 ⟨hreached.mono (by decide), by decide, by decide⟩ 9 (by decide)⟩

end Paging

end PlatformRoutes
