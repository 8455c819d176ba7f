import Mathlib
import PlatformRoutes.Proofs.Segment
import PlatformRoutes.Report

namespace PlatformRoutes

namespace Text

/-- A piece of a text from some place on. -/
def slice (start width : ℕ) (cs : List Char) : List Char := (cs.drop start).take width

/-- Pieces of a text whose end was trimmed are those of the whole text, up to what is trimmed. -/
theorem trimRight_slice (p : Char → Bool) (cs : List Char) (start width : ℕ) :
    trimRight p (slice start width (trimRight p cs)) = trimRight p (slice start width cs) := by
  obtain ⟨rest, hcs, hrest⟩ := exists_trimRight_append p cs
  have hslice : slice start width cs = slice start width (trimRight p cs) ++
      (rest.drop (start - (trimRight p cs).length)).take
        (width - ((trimRight p cs).drop start).length) := by
    conv_lhs => rw [hcs]
    simp only [slice, List.drop_append, List.take_append]
  rw [hslice]
  refine (trimRight_append_of_forall fun c hc => hrest c ?_).symm
  exact List.mem_of_mem_drop (List.mem_of_mem_take hc)

end Text

namespace Report

open Text (slice trimRight isBlank)

variable {records : List RouteRecord} {widths : List ℕ} {cells : List String}

theorem isLeast_foldl_max {α : Type} (f : α → ℕ) (l : List α) (least : ℕ) :
    IsLeast {w | least ≤ w ∧ ∀ a ∈ l, f a ≤ w} (l.foldl (fun w a => max w (f a)) least) := by
  induction l generalizing least with
  | nil => exact ⟨⟨le_rfl, by simp⟩, fun w hw => hw.1⟩
  | cons a l ih =>
    obtain ⟨⟨hmax, hall⟩, hleast⟩ := ih (max least (f a))
    obtain ⟨hbound, hfirst⟩ := Nat.max_le.mp hmax
    refine ⟨⟨hbound, List.forall_mem_cons.mpr ⟨hfirst, hall⟩⟩, fun w hw => hleast ?_⟩
    obtain ⟨ha, hl⟩ := List.forall_mem_cons.mp hw.2
    exact ⟨Nat.max_le.mpr ⟨hw.1, ha⟩, hl⟩

/-- The widths that leave room for the heading of a column and for all that it shows. -/
def Column.rooms (c : Column) (records : List RouteRecord) : Set ℕ :=
  {w | c.heading.length ≤ w ∧ ∀ r ∈ records, (c.cell r).length ≤ w}

theorem Column.isLeast_width (c : Column) (records : List RouteRecord) :
    IsLeast (c.rooms records) (c.width records) :=
  isLeast_foldl_max (fun r => (c.cell r).length) records c.heading.length

/-- How wide the columns are. -/
def widthsFor (records : List RouteRecord) : List ℕ := columns.map fun c => c.width records

theorem isLeast_widthsFor (records : List RouteRecord) :
    List.Forall₂ (fun c w => IsLeast (c.rooms records) w) columns (widthsFor records) := by
  rw [widthsFor, List.forall₂_map_right_iff, List.forall₂_same]
  intro c _
  exact c.isLeast_width records

/-- Each cell has room in its column. -/
def Fits (cells : List String) (widths : List ℕ) : Prop :=
  List.Forall₂ (fun cell w => cell.length ≤ w) cells widths

theorem fits_headings (records : List RouteRecord) :
    Fits (columns.map (·.heading)) (widthsFor records) := by
  rw [Fits, widthsFor, List.forall₂_map_left_iff, List.forall₂_map_right_iff, List.forall₂_same]
  intro c _
  exact (c.isLeast_width records).1.1

theorem fits_cells {r : RouteRecord} (h : r ∈ records) :
    Fits (columns.map fun c => c.cell r) (widthsFor records) := by
  rw [Fits, widthsFor, List.forall₂_map_left_iff, List.forall₂_map_right_iff, List.forall₂_same]
  intro c _
  exact (c.isLeast_width records).1.2 r h

theorem length_padded {cell : List Char} {w : ℕ} (h : cell.length ≤ w) :
    (padded cell w).length = w := by
  simp [padded, h]

theorem trimRight_padded (cell : List Char) (w : ℕ) :
    trimRight isBlank (padded cell w) = trimRight isBlank cell := by
  refine Text.trimRight_append_of_forall fun c hc => ?_
  rw [List.eq_of_mem_replicate hc]
  rfl

/-- Cells side by side, before the blanks at the end are trimmed. -/
def joined (widths : List ℕ) (cells : List String) : List Char :=
  gap.intercalate ((cells.zip widths).map fun c => padded c.1.toList c.2)

/-- Where a column begins: after the columns before it and their gaps. -/
def start (widths : List ℕ) (j : ℕ) : ℕ := (widths.take j).sum + 2 * j

theorem start_succ (w : ℕ) (widths : List ℕ) (j : ℕ) :
    start (w :: widths) (j + 1) = w + (gap.length + start widths j) := by
  simp only [start, gap, List.take_succ_cons, List.sum_cons, List.length_cons, List.length_nil]
  omega

theorem joined_cons_prefix (w : ℕ) (widths : List ℕ) (cell : String) (cells : List String) :
    padded cell.toList w <+: joined (w :: widths) (cell :: cells) := by
  unfold joined
  rw [List.zip_cons_cons, List.map_cons]
  cases (cells.zip widths).map fun c => padded c.1.toList c.2 with
  | nil => simp
  | cons second rest =>
    rw [List.intercalate_cons_cons, List.append_assoc]
    exact List.prefix_append _ _

theorem joined_cons_of_ne_nil (w : ℕ) (widths : List ℕ) (cell : String) (cells : List String)
    (h : cells.zip widths ≠ []) : joined (w :: widths) (cell :: cells) =
      padded cell.toList w ++ (gap ++ joined widths cells) := by
  have hmap : (cells.zip widths).map (fun c => padded c.1.toList c.2) ≠ [] := by simpa using h
  unfold joined
  rw [List.zip_cons_cons, List.map_cons, List.intercalate_cons_of_ne_nil hmap, List.append_assoc]

/-- Where a column begins, its cell stands in all of its width. -/
theorem slice_joined (h : Fits cells widths) {j w : ℕ} {cell : String} (hw : widths[j]? = some w)
    (hcell : cells[j]? = some cell) :
    slice (start widths j) w (joined widths cells) = padded cell.toList w := by
  induction h generalizing j with
  | nil => simp at hw
  | cons hfirst hrest ih =>
    rename_i first width cells widths
    have hlength : (padded first.toList width).length = width := by
      rw [← String.length_toList] at hfirst
      exact length_padded hfirst
    cases j with
    | zero =>
      simp only [List.getElem?_cons_zero, Option.some.injEq] at hw hcell
      subst hw hcell
      obtain ⟨rest, hjoined⟩ := joined_cons_prefix width widths first cells
      rw [← hjoined]
      exact List.take_left' hlength
    | succ j =>
      simp only [List.getElem?_cons_succ] at hw hcell
      have hne : cells.zip widths ≠ [] := by
        intro hnil
        rcases List.zip_eq_nil_iff.mp hnil with rfl | rfl
        · simp at hcell
        · simp at hw
      rw [joined_cons_of_ne_nil width widths first cells hne, start_succ, slice, ← List.drop_drop,
        List.drop_left' hlength, List.drop_length_add_append]
      exact ih hw hcell

/-- A row is aligned if each of its cells is found where its column begins, as wide as that, and no
blank stands at its end. A row may end before a column, or within one: blanks are not told apart
from nothing. -/
structure Aligned (widths : List ℕ) (cells : List String) (row : String) : Prop where
  shown : ∀ j w cell, widths[j]? = some w → cells[j]? = some cell →
    trimRight isBlank (slice (start widths j) w row.toList) = trimRight isBlank cell.toList
  ended : ∀ c, row.toList.getLast? = some c → isBlank c = false

theorem aligned_line (h : Fits cells widths) : Aligned widths cells (line widths cells) := by
  have hline : (line widths cells).toList = trimRight isBlank (joined widths cells) :=
    String.toList_ofList
  refine ⟨fun j w cell hw hcell => ?_, fun c hc => ?_⟩
  · rw [hline, Text.trimRight_slice, slice_joined h hw hcell, trimRight_padded]
  · rw [hline] at hc
    exact Text.getLast?_trimRight hc

/-- The row of a record in the table of some records. -/
def rowOf (records : List RouteRecord) (r : RouteRecord) : String :=
  line (widthsFor records) (columns.map fun c => c.cell r)

theorem aligned_rows (records : List RouteRecord) :
    List.Forall₂ (fun r row => Aligned (widthsFor records) (columns.map fun c => c.cell r) row)
      records (records.map (rowOf records)) := by
  rw [List.forall₂_map_right_iff, List.forall₂_same]
  intro r hr
  exact aligned_line (fits_cells hr)

theorem tableLines_eq (records : List RouteRecord) :
    tableLines records =
      line (widthsFor records) (columns.map (·.heading)) :: rule (widthsFor records) ::
        records.map (rowOf records) ++ ["", countLine records.length] := by
  simp only [tableLines, widthsFor, List.cons_append, List.nil_append]
  rfl

/-- The table is made of the headings, a rule, one row for each record in their order, an empty line
and the count. Each of the six columns has the least width that leaves room for its heading and all
its cells, and all rows are aligned to these widths. -/
theorem table_aligned (records : List RouteRecord) :
    ∃ (widths : List ℕ) (header rule : String) (rows lines : List String),
      table records = "\n".intercalate lines ∧
      lines = header :: rule :: rows ++ ["", countLine records.length] ∧
      lines.length = records.length + 4 ∧
      widths.length = 6 ∧
      List.Forall₂ (fun c w => IsLeast (c.rooms records) w) columns widths ∧
      Aligned widths (columns.map (·.heading)) header ∧
      List.Forall₂ (fun r row => Aligned widths (columns.map fun c => c.cell r) row) records rows ∧
      rule.toList = List.replicate (widths.sum + 2 * (widths.length - 1)) '-' := by
  have hlength : (tableLines records).length = records.length + 4 := by simp [tableLines]
  have hwidths : (widthsFor records).length = 6 := by simp [widthsFor, columns]
  exact ⟨widthsFor records, _, _, _, tableLines records, rfl, tableLines_eq records, hlength,
    hwidths, isLeast_widthsFor records, aligned_line (fits_headings records),
    aligned_rows records, String.toList_ofList⟩

end Report

end PlatformRoutes
