import PlatformRoutes.Http.Envelope

namespace PlatformRoutes

namespace Number

/-- The characters of numerals. -/
def isNumeric (c : Char) : Bool :=
  c.isDigit || c == '.' || c == 'e' || c == '-' || c == '+'

def Numeric (s : String) : Prop := ∀ c ∈ s.toList, isNumeric c = true

instance (s : String) : Decidable (Numeric s) :=
  decidable_of_iff (s.toList.all isNumeric = true) List.all_eq_true

variable {s t : String}

theorem Numeric.append (hs : Numeric s) (ht : Numeric t) : Numeric (s ++ t) := by
  intro c hc
  rw [String.toList_append] at hc
  rcases List.mem_append.mp hc with hc | hc
  · exact hs c hc
  · exact ht c hc

/-- Whatever is left of a numeral is one. -/
theorem Numeric.part (hs : Numeric s) {cs : List Char} (h : cs ⊆ s.toList) :
    Numeric (String.ofList cs) := by
  intro c hc
  rw [String.toList_ofList] at hc
  exact hs c (h hc)

theorem numeric_repr (n : Nat) : Numeric n.repr := by
  intro c hc
  rw [Nat.toList_repr] at hc
  have hdigit : c.isDigit = true :=
    Nat.isDigit_of_mem_toDigits (b := 10) (n := n) (by omega) (by omega) hc
  rw [isNumeric, hdigit]
  rfl

theorem numeric_zeros (n : Nat) : Numeric (zeros n) := by
  intro c hc
  rw [zeros, String.toList_ofList] at hc
  rw [List.eq_of_mem_replicate hc]
  decide

theorem numeric_exponentText (e : Int) : Numeric (exponentText e) := by
  have hsign : Numeric (if e < 0 then "e-" else "e+") := by split <;> decide
  have hdigits := numeric_repr e.natAbs
  apply hsign.append
  split
  · exact Numeric.append (by decide) hdigits
  · exact hdigits

theorem numeric_write (layout : Layout) (d : Decimal) : Numeric (layout.write d) := by
  have hdigits := numeric_repr d.digits
  have htake (n : Nat) : Numeric (String.ofList (d.digits.repr.toList.take n)) :=
    hdigits.part (List.take_subset _ _)
  have hdrop (n : Nat) : Numeric (String.ofList (d.digits.repr.toList.drop n)) :=
    hdigits.part (List.drop_subset _ _)
  unfold Layout.write
  dsimp only
  split
  · apply Numeric.append _ (numeric_exponentText _)
    apply (htake 1).append
    split
    · decide
    · exact Numeric.append (by decide) (hdrop 1)
  · split
    · apply (hdigits.append (numeric_zeros _)).append
      split <;> decide
    · split
      · exact (Numeric.append (by decide) (numeric_zeros _)).append hdigits
      · exact ((htake _).append (by decide)).append (hdrop _)

theorem lowerChar_of_isDigit {c : Char} (h : c.isDigit = true) : Text.lowerChar c = c := by
  have hkelvin : (c == '\u212A') = false := by
    rw [beq_eq_false_iff_ne]
    rintro rfl
    revert h
    decide
  have hsmall : ¬ (c.val ≥ 'A'.val ∧ c.val ≤ 'Z'.val) := by
    rintro ⟨hlow, -⟩
    simp only [Char.isDigit, Bool.and_eq_true, decide_eq_true_eq] at h
    exact absurd (UInt32.le_trans hlow h.2) (by decide)
  have hlower : c.toLower = c := dif_neg hsmall
  rw [Text.lowerChar, hkelvin, hlower]
  rfl

/-- A numeral has no letter case. -/
theorem lower_of_numeric (h : Numeric s) : Text.lower s = s := by
  have hsame : s.toList.map Text.lowerChar = s.toList.map id := by
    apply List.map_congr_left
    intro c hc
    have hnumeric := h c hc
    simp only [isNumeric, Bool.or_eq_true, beq_iff_eq] at hnumeric
    rcases hnumeric with (((hdigit | rfl) | rfl) | rfl) | rfl
    · exact lowerChar_of_isDigit hdigit
    all_goals decide
  rw [Text.lower, hsame, List.map_id, String.ofList_toList]

theorem ne_finished_of_numeric (h : Numeric s) : Text.lower s ≠ "finished" := by
  rw [lower_of_numeric h]
  rintro rfl
  revert h
  decide

theorem floatText_ne_finished (x : Float) : Text.lower (floatText x) ≠ "finished" := by
  unfold floatText
  split
  · decide
  · have hinfinite : ∀ negative, Text.lower (signed negative "inf") ≠ "finished" := by decide
    exact hinfinite _
  · have hzero : ∀ negative, Text.lower (signed negative "0.0") ≠ "finished" := by decide
    exact hzero _
  · apply ne_finished_of_numeric
    unfold signed
    split
    · exact Numeric.append (by decide) (numeric_write _ _)
    · exact numeric_write _ _

end Number

namespace Json

/-- No value but a text reads as the word that tells that a job is done. -/
theorem text_of_finished {v : Json} (h : Text.lower v.plain = "finished") : ∃ s, v = .text s := by
  cases v with
  | text s => exact ⟨s, rfl⟩
  | null => exact absurd h (by decide)
  | bool b => cases b <;> exact absurd h (by decide)
  | int n =>
    have hplain : Number.Numeric n.repr := by
      cases n with
      | ofNat m => exact Number.numeric_repr m
      | negSucc m => exact Number.Numeric.append (by decide) (Number.numeric_repr _)
    rw [plain, literal, String.ofList_toList] at h
    · exact absurd h (Number.ne_finished_of_numeric hplain)
    · simp
  | real x =>
    rw [plain, literal, String.ofList_toList] at h
    · exact absurd h (Number.floatText_ne_finished x)
    · simp
  | list items =>
    have hlist := congrArg String.toList h
    simp [plain, literal, Text.lower] at hlist
    exact absurd hlist.1 (by decide)
  | object fields =>
    have hlist := congrArg String.toList h
    simp [plain, literal, Text.lower] at hlist
    exact absurd hlist.1 (by decide)

end Json

namespace Http

theorem present_text {s : String} (h : s ≠ "") : present (some (.text s)) = some (.text s) := by
  have htruthy : (Json.text s).isTruthy = true := by simp [Json.isTruthy, h]
  simp [present, Option.filter, htruthy]

namespace Envelope

variable {e : Envelope}

/-- A status is read in any letter case. -/
theorem status_of_text {s : String} {k : JobStatus} (h : e.entity.get? "status" = some (.text s))
    (hlower : Text.lower s = k.name) : e.status = k := by
  have hne : s ≠ "" := by
    intro hempty
    subst hempty
    exact absurd hlower (by cases k <;> decide)
  have hplain : plainOr "queued" (e.entity.get? "status") = s := by
    rw [h, plainOr, present_text hne]
    rfl
  rw [Envelope.status, hplain, hlower]
  cases k <;> rfl

/-- Only a status that is a text and spells the word in some letter case is read as finished. One that
is missing, null or unknown is not. -/
theorem finished_of_status (h : e.status = .finished) :
    ∃ s, e.entity.get? "status" = some (.text s) ∧ Text.lower s = "finished" := by
  unfold Envelope.status at h
  have hword : Text.lower (plainOr "queued" (e.entity.get? "status")) = "finished" := by
    cases hname : JobStatus.ofName? (Text.lower (plainOr "queued" (e.entity.get? "status"))) with
    | none =>
      rw [hname] at h
      cases h
    | some k =>
      rw [hname] at h
      cases h
      have hfound := List.find?_some hname
      exact (beq_iff_eq.mp hfound).symm
  unfold plainOr at hword
  split at hword
  · exact absurd hword (by decide)
  · rename_i v hpresent
    obtain ⟨hv, -⟩ := Option.filter_eq_some_iff.mp hpresent
    obtain ⟨s, rfl⟩ := Json.text_of_finished hword
    exact ⟨s, hv, hword⟩

end Envelope

end Http

end PlatformRoutes
