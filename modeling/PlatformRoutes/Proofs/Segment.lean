import Mathlib.Data.List.DropRight
import PlatformRoutes.Record.Route

namespace PlatformRoutes

namespace Text

variable {p : Char → Bool} {cs : List Char} {c : Char}

/-- A text with nothing to trim at either end. -/
structure Trimmed (p : Char → Bool) (cs : List Char) : Prop where
  first : ∀ c, cs.head? = some c → p c = false
  last : ∀ c, cs.getLast? = some c → p c = false

theorem head?_dropWhile (h : (cs.dropWhile p).head? = some c) : p c = false := by
  have hnot := List.head?_dropWhile_not p cs
  rwa [h] at hnot

theorem getLast?_trimRight (h : (trimRight p cs).getLast? = some c) : p c = false := by
  rw [trimRight, List.getLast?_reverse] at h
  exact head?_dropWhile h

/-- Whatever stands at the end and would be trimmed makes no difference. -/
theorem trimRight_append_of_forall {rest : List Char} (h : ∀ c ∈ rest, p c = true) :
    trimRight p (cs ++ rest) = trimRight p cs := by
  have hrest : ∀ c ∈ rest.reverse, p c = true := fun c hc => h c (List.mem_reverse.mp hc)
  rw [trimRight, List.reverse_append, List.dropWhile_append_of_pos hrest]
  rfl

/-- A text is what is left of it and then only what was trimmed. -/
theorem exists_trimRight_append (p : Char → Bool) (cs : List Char) :
    ∃ rest, cs = trimRight p cs ++ rest ∧ ∀ c ∈ rest, p c = true :=
  ⟨cs.rtakeWhile p, List.rdropWhile_append_rtakeWhile.symm, fun _ => List.mem_rtakeWhile_imp⟩

theorem trimmed_trim (p : Char → Bool) (cs : List Char) : Trimmed p (trim p cs) where
  first := by
    intro c hc
    obtain ⟨rest, hrest⟩ := List.rdropWhile_prefix p (cs.dropWhile p)
    have hhead : (cs.dropWhile p).head? = some c := by
      rw [← hrest]
      change (trim p cs ++ rest).head? = some c
      rw [List.head?_append, hc]
      rfl
    exact head?_dropWhile hhead
  last := fun _ hc => getLast?_trimRight hc

theorem dropWhile_eq_self (h : ∀ c, cs.head? = some c → p c = false) : cs.dropWhile p = cs := by
  cases cs with
  | nil => rfl
  | cons c rest => exact List.dropWhile_cons_of_neg (Bool.eq_false_iff.mp (h c rfl))

theorem Trimmed.trim_eq (h : Trimmed p cs) : trim p cs = cs := by
  have hlast : ∀ c, cs.reverse.head? = some c → p c = false := by
    intro c hc
    rw [List.head?_reverse] at hc
    exact h.last c hc
  rw [trim, dropWhile_eq_self h.first, trimRight, dropWhile_eq_self hlast, List.reverse_reverse]

theorem Trimmed.cons (h : Trimmed p cs) (hne : cs ≠ []) (hc : p c = false) :
    Trimmed p (c :: cs) where
  first := by
    rintro _ ⟨⟩
    exact hc
  last := by
    intro d hd
    rw [List.getLast?_cons_of_ne_nil hne] at hd
    exact h.last d hd

end Text

variable {s : String}

theorem normalSegment_trimmed (value : Option String) :
    Text.Trimmed Text.isBlank (normalSegment value).toList := by
  cases value with
  | none => exact ⟨fun _ h => (by cases h), fun _ h => (by cases h)⟩
  | some s =>
    rw [normalSegment, Text.strip, String.toList_ofList]
    exact Text.trimmed_trim _ _

/-- A segment without blanks around it is in its normal form. -/
theorem normalSegment_of_trimmed (h : Text.Trimmed Text.isBlank s.toList) :
    normalSegment (some s) = s := by
  rw [normalSegment, Text.strip, h.trim_eq, String.ofList_toList]

theorem normalSegment_idem (value : Option String) :
    normalSegment (some (normalSegment value)) = normalSegment value :=
  normalSegment_of_trimmed (normalSegment_trimmed value)

/-- A normal path is empty or begins with a slash. -/
inductive IsPath (s : String) : Prop where
  | empty (h : s.toList = [])
  | slash (rest : List Char) (h : s.toList = '/' :: rest)

theorem normalPath_isPath (value : Option String) : IsPath (normalPath value) := by
  unfold normalPath
  dsimp only
  split
  · rename_i h
    exact .empty h
  · rename_i rest h
    exact .slash rest h
  · exact .slash _ (by rw [String.toList_append]; rfl)

theorem normalPath_trimmed (value : Option String) :
    Text.Trimmed Text.isBlank (normalPath value).toList := by
  have hsegment := normalSegment_trimmed value
  unfold normalPath
  dsimp only
  split
  · exact hsegment
  · exact hsegment
  · rename_i hne _
    rw [String.toList_append]
    exact hsegment.cons hne (by decide)

theorem normalPath_of_trimmed (h : Text.Trimmed Text.isBlank s.toList) (hp : IsPath s) :
    normalPath (some s) = s := by
  unfold normalPath
  rw [normalSegment_of_trimmed h]
  dsimp only
  cases hp with
  | empty hs => rw [hs]
  | slash rest hs =>
    rw [hs]
    rfl

theorem normalPath_idem (value : Option String) :
    normalPath (some (normalPath value)) = normalPath value :=
  normalPath_of_trimmed (normalPath_trimmed value) (normalPath_isPath value)

/-- A path may be stripped before its slash is looked for. -/
theorem normalPath_normalSegment (value : Option String) :
    normalPath (some (normalSegment value)) = normalPath value := by
  unfold normalPath
  rw [normalSegment_idem]

/-- The normal spelling of a route's host and path names the same route. -/
theorem RouteKey.of_normal (domainId : String) (host path : Option String) :
    RouteKey.of domainId (some (normalSegment host)) (some (normalPath path)) =
      RouteKey.of domainId host path := by
  rw [RouteKey.of, normalSegment_idem, normalPath_idem]
  rfl

end PlatformRoutes
