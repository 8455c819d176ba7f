import Mathlib.Data.List.Nodup
import PlatformRoutes.Register

namespace PlatformRoutes.Register

variable {α : Type} [Keyed α] {r : Register α} {a b : α} {k l : String}

/-- A register holds at most one thing of a key. -/
theorem eq_of_key (ha : a ∈ r.items) (hb : b ∈ r.items) (hk : Keyed.key a = Keyed.key b) : a = b :=
  List.inj_on_of_nodup_map r.distinct ha hb hk

theorem find?_eq_some_iff : r.find? k = some a ↔ a ∈ r.items ∧ Keyed.key a = k := by
  constructor
  · intro h
    exact ⟨List.mem_of_find?_eq_some h, by simpa using List.find?_some h⟩
  · rintro ⟨ha, rfl⟩
    cases hf : r.find? (Keyed.key a) with
    | none =>
      have := List.find?_eq_none.mp hf a ha
      simp at this
    | some b =>
      have hk : Keyed.key b = Keyed.key a := by simpa using List.find?_some hf
      rw [eq_of_key (List.mem_of_find?_eq_some hf) ha hk]

theorem contains_iff : r.contains k = true ↔ ∃ a ∈ r.items, Keyed.key a = k := by
  simp only [contains, Option.isSome_iff_exists, find?_eq_some_iff]

theorem find?_putInto : ∀ {l : List α}, (putInto a l).find? (fun b => Keyed.key b == k) =
    if Keyed.key a = k then some a else l.find? (fun b => Keyed.key b == k)
  | [] => by by_cases h : Keyed.key a = k <;> simp [putInto, h]
  | b :: rest => by
    unfold putInto
    split
    · rename_i same
      have same : Keyed.key b = Keyed.key a := by simpa using same
      by_cases h : Keyed.key a = k <;> simp [h, same]
    · rename_i other
      rw [List.find?_cons, List.find?_cons, find?_putInto]
      by_cases h : Keyed.key a = k
      · subst h
        simp [other]
      · simp [h]

/-- What was put is found under its key, and nothing else is found differently. -/
theorem find?_put : (r.put a).find? k = if Keyed.key a = k then some a else r.find? k :=
  find?_putInto

theorem mem_putInto : ∀ {l : List α}, b ∈ putInto a l → b = a ∨ b ∈ l
  | [], h => by simpa [putInto] using h
  | c :: rest, h => by
    unfold putInto at h
    split at h
    · rcases List.mem_cons.mp h with rfl | h
      · exact .inl rfl
      · exact .inr (List.mem_cons_of_mem _ h)
    · rcases List.mem_cons.mp h with rfl | h
      · exact .inr List.mem_cons_self
      · rcases mem_putInto h with rfl | h
        · exact .inl rfl
        · exact .inr (List.mem_cons_of_mem _ h)

theorem mem_put (h : b ∈ (r.put a).items) : b = a ∨ b ∈ r.items := mem_putInto h

theorem self_mem_put : a ∈ (r.put a).items :=
  (find?_eq_some_iff.mp (by rw [find?_put, if_pos rfl])).1

theorem putInto_new : ∀ {l : List α}, (∀ b ∈ l, Keyed.key b ≠ Keyed.key a) → putInto a l = l ++ [a]
  | [], _ => rfl
  | c :: rest, h => by
    have hc := h c List.mem_cons_self
    simp [putInto, hc, putInto_new fun b hb => h b (List.mem_cons_of_mem _ hb)]

/-- A thing of a new key is put at the end. -/
theorem put_new (h : ∀ b ∈ r.items, Keyed.key b ≠ Keyed.key a) : (r.put a).items = r.items ++ [a] :=
  putInto_new h

/-- Where nothing passed a test, what is put is all that may pass it. -/
theorem filter_putInto_of_none {p : α → Bool} :
    ∀ {l : List α}, l.filter p = [] → (putInto a l).filter p = [a].filter p
  | [], _ => rfl
  | b :: rest, h => by
    obtain ⟨hb, hrest⟩ := List.forall_mem_cons.mp (List.filter_eq_nil_iff.mp h)
    have hnone : rest.filter p = [] := List.filter_eq_nil_iff.mpr hrest
    unfold putInto
    split
    · rw [← List.singleton_append, List.filter_append, hnone, List.append_nil]
    · rw [List.filter_cons_of_neg hb, filter_putInto_of_none hnone]

theorem find?_erase_self : (r.erase k).find? k = none := by
  simp [erase, find?]

theorem find?_erase_other (h : l ≠ k) : (r.erase k).find? l = r.find? l := by
  simp only [erase, find?, List.find?_filter]
  congr 1
  funext b
  by_cases hb : Keyed.key b = l <;> simp [hb, h]

end PlatformRoutes.Register
