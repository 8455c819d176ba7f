import Mathlib.Data.List.Induction
import Mathlib.Data.List.Nodup
import PlatformRoutes.Json.Printer
import PlatformRoutes.Json.Reader

namespace PlatformRoutes

namespace Json

variable {v : Json} {items : List Json} {fields : Fields} {fuel : ℕ} {rest tail : List Char}

theorem hexValue_hexDigit : ∀ {d : ℕ}, d < 16 → hexValue? (Number.hexDigit d) = some d := by
  decide

theorem toList_hex (n : ℕ) : (Number.hex 4 n).toList =
    [Number.hexDigit (n / 4096 % 16), Number.hexDigit (n / 256 % 16), Number.hexDigit (n / 16 % 16),
      Number.hexDigit (n % 16)] := by
  rw [Number.hex, String.toList_ofList]
  change [_, _, _, Number.hexDigit (n / 1 % 16)] = _
  rw [Nat.div_one]

/-- Four digits are read back as the unit that they were written for. -/
theorem hexUnit_hex {n : ℕ} (h : n < 0x10000) (rest : List Char) :
    hexUnit? ((Number.hex 4 n).toList ++ rest) = some (n, rest) := by
  have hdigit (k : ℕ) : hexValue? (Number.hexDigit (k % 16)) = some (k % 16) :=
    hexValue_hexDigit (Nat.mod_lt k (by omega))
  have hvalue : ((n / 4096 % 16 * 16 + n / 256 % 16) * 16 + n / 16 % 16) * 16 + n % 16 = n := by
    omega
  simp only [toList_hex, List.cons_append, List.nil_append, hexUnit?, hdigit, Option.bind_eq_bind,
    Option.bind_some, hvalue]

/-- A unit that is no half of a pair stands for its own character. -/
theorem unitChar_of_char {c : Char} (rest : List Char) : unitChar c.toNat rest = (c, rest) := by
  have hvalid : c.toNat < 0xD800 ∨ 0xDFFF < c.toNat ∧ c.toNat < 0x110000 := c.valid
  have hhigh : isHighUnit c.toNat = false := by
    simp only [isHighUnit, Bool.and_eq_false_iff, decide_eq_false_iff_not]
    omega
  have hlow : isLowUnit c.toNat = false := by
    simp only [isLowUnit, Bool.and_eq_false_iff, decide_eq_false_iff_not]
    omega
  simp [unitChar, hhigh, hlow]

/-- The two halves of a pair are joined again. -/
theorem unitChar_pair {high low : ℕ} (hhigh : isHighUnit high = true) (hlow : isLowUnit low = true)
    (rest : List Char) : unitChar high (unitEscape low ++ rest) =
      (Char.ofNat (0x10000 + (high - 0xD800) * 1024 + (low - 0xDC00)), rest) := by
  have hsmall : low < 0x10000 := by
    simp only [isLowUnit, Bool.and_eq_true, decide_eq_true_eq] at hlow
    omega
  simp only [unitChar, hhigh, unitEscape, List.cons_append, hexUnit_hex hsmall, hlow, if_true]

theorem readChars_unit (n fuel : ℕ) (h : n < 0x10000) (rest : List Char) :
    readChars (fuel + 1) (unitEscape n ++ rest) =
      (readChars fuel (unitChar n rest).2).map fun (s, r) => ((unitChar n rest).1 :: s, r) := by
  simp only [unitEscape, List.cons_append, readChars, hexUnit_hex h]

theorem readChars_charEscape (c : Char) (fuel : ℕ) (rest : List Char) :
    readChars (fuel + 1) (charEscape c ++ rest) =
      (readChars fuel rest).map fun (s, r) => (c :: s, r) := by
  have hvalid : c.toNat < 0xD800 ∨ 0xDFFF < c.toNat ∧ c.toNat < 0x110000 := c.valid
  unfold charEscape
  dsimp only
  split
  · rename_i hsmall
    rw [readChars_unit _ _ hsmall, unitChar_of_char]
  · rename_i hlarge
    have hhigh : isHighUnit (0xD800 + (c.toNat - 0x10000) / 1024) = true := by
      simp only [isHighUnit, Bool.and_eq_true, decide_eq_true_eq]
      omega
    have hlow : isLowUnit (0xDC00 + (c.toNat - 0x10000) % 1024) = true := by
      simp only [isLowUnit, Bool.and_eq_true, decide_eq_true_eq]
      omega
    have hjoined : 0x10000 + (0xD800 + (c.toNat - 0x10000) / 1024 - 0xD800) * 1024 +
        (0xDC00 + (c.toNat - 0x10000) % 1024 - 0xDC00) = c.toNat := by omega
    rw [List.append_assoc, readChars_unit _ _ (by omega), unitChar_pair hhigh hlow, hjoined,
      Char.ofNat_toNat]

/-- Every character is read back from the way in which it is quoted. -/
theorem readChars_quoteChar (c : Char) (fuel : ℕ) (rest : List Char) :
    readChars (fuel + 1) (quoteChar .ascii c ++ rest) =
      (readChars fuel rest).map fun (s, r) => (c :: s, r) := by
  unfold quoteChar
  split
  case h_8 hquote hbackslash _ _ _ _ _ =>
    split
    · rename_i hkept
      have hvisible : ¬ c.toNat < 32 := by
        simp only [Charset.keeps, Bool.and_eq_true, decide_eq_true_eq] at hkept
        omega
      rw [List.singleton_append, readChars, if_neg hvisible]
      · exact hquote
      · exact fun _ h => absurd h hbackslash
      · exact fun _ _ h => absurd h hbackslash
    · exact readChars_charEscape c fuel rest
  all_goals rfl

theorem quoteChar_ne_nil (charset : Charset) (c : Char) : quoteChar charset c ≠ [] := by
  unfold quoteChar
  split
  case h_8 =>
    split
    · exact List.cons_ne_nil _ _
    · unfold charEscape
      dsimp only
      split
      · exact List.cons_ne_nil _ _
      · exact List.append_ne_nil_of_left_ne_nil (List.cons_ne_nil _ _) _
  all_goals exact List.cons_ne_nil _ _

/-- One step is taken for each character, and one for the closing quote. -/
theorem readChars_flatMap (cs : List Char) (h : (cs.flatMap (quoteChar .ascii)).length < fuel)
    (rest : List Char) :
    readChars fuel (cs.flatMap (quoteChar .ascii) ++ '"' :: rest) = .ok (cs, rest) := by
  induction cs generalizing fuel with
  | nil =>
    obtain ⟨fuel, rfl⟩ := Nat.exists_eq_add_of_lt h
    rfl
  | cons c cs ih =>
    obtain ⟨fuel, rfl⟩ := Nat.exists_eq_add_of_lt h
    have hc := List.length_pos_iff.mpr (quoteChar_ne_nil .ascii c)
    rw [List.flatMap_cons, List.length_append] at *
    rw [List.append_assoc, readChars_quoteChar, ih (by omega)]
    rfl

theorem readText_quote (s : String) (h : (quote .ascii s).length ≤ fuel + 1) (rest : List Char) :
    readText fuel (s.toList.flatMap (quoteChar .ascii) ++ '"' :: rest) = .ok (s, rest) := by
  have hlength : (s.toList.flatMap (quoteChar .ascii)).length < fuel := by
    simp only [quote, List.length_cons, List.length_append, List.length_nil] at h
    omega
  rw [readText, readChars_flatMap s.toList hlength]
  exact congrArg (fun t => Except.ok (t, rest)) String.ofList_toList

theorem skipSpace_cons {c : Char} (h : isSpace c = false) (cs : List Char) :
    skipSpace (c :: cs) = c :: cs :=
  List.dropWhile_cons_of_neg (Bool.eq_false_iff.mp h)

theorem skipSpace_newline (depth : ℕ) (cs : List Char) :
    skipSpace (newline depth ++ cs) = skipSpace cs := by
  refine List.dropWhile_append_of_pos fun c hc => ?_
  rcases List.mem_cons.mp hc with rfl | hblank
  · rfl
  · rw [List.eq_of_mem_replicate hblank]
    rfl

/-- A value that is read back from how it is printed, with whatever follows left over. -/
structure ReadsBack (v : Json) : Prop where
  /-- It does not look like a blank or like the end of a list. -/
  begins : ∀ depth, ∃ c cs, pretty depth v = c :: cs ∧ isSpace c = false ∧ c ≠ ']'
  reads : ∀ depth fuel rest, (pretty depth v).length ≤ fuel →
    readValue fuel (pretty depth v ++ rest) = .ok (v, rest)

namespace ReadsBack

theorem skipSpace_pretty (h : v.ReadsBack) (depth : ℕ) (rest : List Char) :
    skipSpace (pretty depth v ++ rest) = pretty depth v ++ rest := by
  obtain ⟨c, cs, hpretty, hc, -⟩ := h.begins depth
  rw [hpretty, List.cons_append, skipSpace_cons hc]

/-- A value is read where there is a new line in front of it. -/
theorem reads_line (h : v.ReadsBack) {depth : ℕ}
    (hfuel : (newline depth ++ pretty depth v).length ≤ fuel + 1) (rest : List Char) :
    readValue fuel (skipSpace (newline depth ++ pretty depth v ++ rest)) = .ok (v, rest) := by
  rw [List.append_assoc, skipSpace_newline, h.skipSpace_pretty]
  refine h.reads depth fuel rest ?_
  simp only [newline, List.length_append, List.length_cons] at hfuel
  omega

end ReadsBack

theorem prettyItems_singleton (depth : ℕ) (v : Json) :
    prettyItems depth [v] = newline depth ++ pretty depth v := by
  rw [prettyItems]

theorem prettyItems_cons_cons (depth : ℕ) (v w : Json) (items : List Json) :
    prettyItems depth (v :: w :: items) =
      newline depth ++ pretty depth v ++ ',' :: prettyItems depth (w :: items) := by
  rw [prettyItems]
  exact List.cons_ne_nil w items

/-- The items of a list are read up to the bracket that closes it. -/
theorem readItems_pretty (h : ∀ v ∈ items, v.ReadsBack) (hne : items ≠ []) {depth : ℕ}
    (hfuel : (prettyItems depth items).length ≤ fuel) (hclosed : skipSpace tail = ']' :: rest) :
    readItems fuel (skipSpace (prettyItems depth items ++ tail)) = .ok (items, rest) := by
  induction items generalizing fuel with
  | nil => exact absurd rfl hne
  | cons v items ih =>
    obtain ⟨hv, hitems⟩ := List.forall_mem_cons.mp h
    cases items with
    | nil =>
      rw [prettyItems_singleton] at *
      obtain ⟨fuel, rfl⟩ : ∃ n, fuel = n + 1 := ⟨fuel - 1, by simp [newline] at hfuel; omega⟩
      simp only [readItems, hv.reads_line hfuel, bind, Except.bind, hclosed]
      rfl
    | cons w items =>
      rw [prettyItems_cons_cons] at *
      obtain ⟨fuel, rfl⟩ : ∃ n, fuel = n + 1 := ⟨fuel - 1, by simp [newline] at hfuel; omega⟩
      have hfirst : (newline depth ++ pretty depth v).length ≤ fuel + 1 := by
        rw [List.length_append] at hfuel
        omega
      have hrest : (prettyItems depth (w :: items)).length ≤ fuel := by
        simp only [List.length_append, List.length_cons] at hfuel
        omega
      rw [List.append_assoc]
      simp only [readItems, hv.reads_line hfirst, bind, Except.bind, List.cons_append,
        skipSpace_cons (show isSpace ',' = false from rfl),
        ih hitems (List.cons_ne_nil w items) hrest]
      rfl

/-- A field on a line of its own. -/
def fieldLine (depth : ℕ) (name : String) (v : Json) : List Char :=
  newline depth ++ quote .ascii name ++ ':' :: ' ' :: pretty depth v

theorem prettyFields_singleton (depth : ℕ) (name : String) (v : Json) :
    prettyFields depth [(name, v)] = fieldLine depth name v := by
  rw [prettyFields, fieldLine]

theorem prettyFields_cons_cons (depth : ℕ) (name : String) (v : Json) (f : String × Json)
    (fields : Fields) : prettyFields depth ((name, v) :: f :: fields) =
      fieldLine depth name v ++ ',' :: prettyFields depth (f :: fields) := by
  rw [prettyFields, fieldLine]
  exact List.cons_ne_nil f fields

namespace ReadsBack

/-- A field is read in three parts: the quote, the name up to its colon, and the value. -/
theorem field_parts (h : v.ReadsBack) {depth : ℕ} {name : String}
    (hfuel : (fieldLine depth name v).length ≤ fuel + 1) (rest : List Char) :
    ∃ quoted after, skipSpace (fieldLine depth name v ++ rest) = '"' :: quoted ∧
      readText fuel quoted = .ok (name, ':' :: after) ∧
      readValue fuel (skipSpace after) = .ok (v, rest) := by
  simp only [fieldLine, newline, List.length_append, List.length_cons] at hfuel
  refine ⟨_, ' ' :: (pretty depth v ++ rest), ?_, readText_quote name (by omega) _, ?_⟩
  · simp only [fieldLine, quote, List.append_assoc, skipSpace_newline, List.cons_append,
      List.nil_append, skipSpace_cons (show isSpace '"' = false from rfl)]
  · rw [show skipSpace (' ' :: (pretty depth v ++ rest)) = pretty depth v ++ rest from
      h.skipSpace_pretty depth rest]
    exact h.reads depth fuel rest (by omega)

theorem readFields_last (h : v.ReadsBack) {depth : ℕ} {name : String}
    (hfuel : (fieldLine depth name v).length ≤ fuel + 1) (hclosed : skipSpace tail = '}' :: rest) :
    readFields (fuel + 1) (skipSpace (fieldLine depth name v ++ tail)) =
      .ok ([(name, v)], rest) := by
  obtain ⟨quoted, after, hquoted, hname, hvalue⟩ := h.field_parts hfuel tail
  rw [hquoted]
  simp only [readFields, hname, bind, Except.bind,
    skipSpace_cons (show isSpace ':' = false from rfl), hvalue, hclosed]
  rfl

theorem readFields_more (h : v.ReadsBack) {depth : ℕ} {name : String}
    (hfuel : (fieldLine depth name v).length ≤ fuel + 1)
    (hmore : readFields fuel (skipSpace tail) = .ok (fields, rest)) :
    readFields (fuel + 1) (skipSpace (fieldLine depth name v ++ ',' :: tail)) =
      .ok ((name, v) :: fields, rest) := by
  obtain ⟨quoted, after, hquoted, hname, hvalue⟩ := h.field_parts hfuel (',' :: tail)
  rw [hquoted]
  simp only [readFields, hname, bind, Except.bind,
    skipSpace_cons (show isSpace ':' = false from rfl), hvalue,
    skipSpace_cons (show isSpace ',' = false from rfl), hmore]
  rfl

end ReadsBack

/-- The fields of an object are read up to the brace that closes it. -/
theorem readFields_pretty (h : ∀ f ∈ fields, f.2.ReadsBack) (hne : fields ≠ []) {depth : ℕ}
    (hfuel : (prettyFields depth fields).length ≤ fuel) (hclosed : skipSpace tail = '}' :: rest) :
    readFields fuel (skipSpace (prettyFields depth fields ++ tail)) = .ok (fields, rest) := by
  induction fields generalizing fuel with
  | nil => exact absurd rfl hne
  | cons f fields ih =>
    obtain ⟨name, v⟩ := f
    obtain ⟨hv, hfields⟩ := List.forall_mem_cons.mp h
    cases fields with
    | nil =>
      rw [prettyFields_singleton] at *
      obtain ⟨fuel, rfl⟩ : ∃ n, fuel = n + 1 :=
        ⟨fuel - 1, by simp [fieldLine, newline] at hfuel; omega⟩
      exact hv.readFields_last hfuel hclosed
    | cons g fields =>
      rw [prettyFields_cons_cons] at *
      obtain ⟨fuel, rfl⟩ : ∃ n, fuel = n + 1 :=
        ⟨fuel - 1, by simp [fieldLine, newline] at hfuel; omega⟩
      have hfirst : (fieldLine depth name v).length ≤ fuel + 1 := by
        rw [List.length_append] at hfuel
        omega
      have hrest : (prettyFields depth (g :: fields)).length ≤ fuel := by
        simp only [List.length_append, List.length_cons] at hfuel
        omega
      rw [List.append_assoc]
      exact hv.readFields_more hfirst (ih hfields (List.cons_ne_nil g fields) hrest)

theorem put_new {name : String} (h : name ∉ fields.map Prod.fst) (v : Json) :
    Fields.put fields name v = fields ++ [(name, v)] := by
  induction fields with
  | nil => rfl
  | cons f fields ih =>
    obtain ⟨hne, hrest⟩ : name ≠ f.1 ∧ name ∉ fields.map Prod.fst := by simpa using h
    simp [Fields.put, hne.symm, ih hrest]

/-- Fields of different names stay as they are. -/
theorem ofPairs_of_nodup (h : (fields.map Prod.fst).Nodup) : Fields.ofPairs fields = fields := by
  induction fields using List.reverseRecOn with
  | nil => rfl
  | append_singleton fields f ih =>
    rw [List.map_append, List.nodup_append_comm] at h
    obtain ⟨hnew, hrest⟩ := List.nodup_cons.mp h
    unfold Fields.ofPairs at ih ⊢
    rw [List.foldl_append, ih hrest]
    exact put_new hnew f.2

/-- The values that hold no number, and no object with two fields of one name. -/
inductive Wordy : Json → Prop
  | null : Wordy .null
  | bool (b : Bool) : Wordy (.bool b)
  | text (s : String) : Wordy (.text s)
  | list (items : List Json) (h : ∀ v ∈ items, Wordy v) : Wordy (.list items)
  | object (fields : Fields) (distinct : (fields.map Prod.fst).Nodup)
      (h : ∀ f ∈ fields, Wordy f.2) : Wordy (.object fields)

theorem readValue_list {text items' : List Char} (hskip : skipSpace text = items')
    (hopen : ∀ r, items' ≠ ']' :: r) (hread : readItems fuel items' = .ok (items, rest)) :
    readValue (fuel + 1) ('[' :: text) = .ok (.list items, rest) := by
  simp only [readValue, hskip, hread]
  rfl

theorem readValue_object {text fields' : List Char} (hskip : skipSpace text = fields')
    (hopen : ∀ r, fields' ≠ '}' :: r) (hread : readFields fuel fields' = .ok (fields, rest)) :
    readValue (fuel + 1) ('{' :: text) = .ok (.object (Fields.ofPairs fields), rest) := by
  simp only [readValue, hskip, hread]
  rfl

/-- A list is not taken for an empty one. -/
theorem ReadsBack.skipSpace_items (h : v.ReadsBack) (depth : ℕ) (items : List Json)
    (tail : List Char) : ∀ r, skipSpace (prettyItems depth (v :: items) ++ tail) ≠ ']' :: r := by
  obtain ⟨c, cs, hpretty, hspace, hne⟩ := h.begins depth
  have hfirst (tail : List Char) (r : List Char) :
      skipSpace (newline depth ++ pretty depth v ++ tail) ≠ ']' :: r := by
    rw [List.append_assoc, skipSpace_newline, hpretty, List.cons_append, skipSpace_cons hspace]
    exact fun heq => hne (List.cons.inj heq).1
  cases items with
  | nil =>
    rw [prettyItems_singleton]
    exact hfirst tail
  | cons w items =>
    rw [prettyItems_cons_cons, List.append_assoc]
    exact hfirst _

theorem skipSpace_fields (depth : ℕ) (f : String × Json) (fields : Fields) (tail : List Char) :
    ∀ r, skipSpace (prettyFields depth (f :: fields) ++ tail) ≠ '}' :: r := by
  obtain ⟨name, v⟩ := f
  have hfirst (tail : List Char) (r : List Char) :
      skipSpace (fieldLine depth name v ++ tail) ≠ '}' :: r := by
    rw [fieldLine, quote, List.append_assoc, List.append_assoc, skipSpace_newline]
    exact fun heq => absurd (List.cons.inj heq).1 (by decide)
  cases fields with
  | nil =>
    rw [prettyFields_singleton]
    exact hfirst tail
  | cons g fields =>
    rw [prettyFields_cons_cons, List.append_assoc]
    exact hfirst _

theorem readsBack_list (h : ∀ v ∈ items, v.ReadsBack) : (Json.list items).ReadsBack := by
  cases items with
  | nil =>
    refine ⟨fun depth => ⟨'[', [']'], rfl, rfl, by decide⟩, fun depth fuel rest hfuel => ?_⟩
    obtain ⟨fuel, rfl⟩ := Nat.exists_eq_add_of_lt hfuel
    rfl
  | cons v items =>
    have hpretty (depth : ℕ) : pretty depth (.list (v :: items)) =
        '[' :: (prettyItems (depth + 1) (v :: items) ++ (newline depth ++ [']'])) := by
      rw [pretty, List.append_assoc]
      rfl
    refine ⟨fun depth => ⟨'[', _, hpretty depth, rfl, by decide⟩, fun depth fuel rest hfuel => ?_⟩
    rw [hpretty] at *
    obtain ⟨fuel, rfl⟩ : ∃ n, fuel = n + 1 := ⟨fuel - 1, by simp at hfuel; omega⟩
    have hitems : (prettyItems (depth + 1) (v :: items)).length ≤ fuel := by
      simp only [List.length_append, List.length_cons] at hfuel
      omega
    have hclosed : skipSpace (newline depth ++ [']'] ++ rest) = ']' :: rest := by
      rw [List.append_assoc, skipSpace_newline]
      rfl
    rw [List.cons_append, List.append_assoc]
    exact readValue_list rfl
      ((List.forall_mem_cons.mp h).1.skipSpace_items (depth + 1) items _)
      (readItems_pretty h (List.cons_ne_nil v items) hitems hclosed)

theorem readsBack_object (hdistinct : (fields.map Prod.fst).Nodup)
    (h : ∀ f ∈ fields, f.2.ReadsBack) : (Json.object fields).ReadsBack := by
  cases fields with
  | nil =>
    refine ⟨fun depth => ⟨'{', ['}'], rfl, rfl, by decide⟩, fun depth fuel rest hfuel => ?_⟩
    obtain ⟨fuel, rfl⟩ := Nat.exists_eq_add_of_lt hfuel
    rfl
  | cons f fields =>
    have hpretty (depth : ℕ) : pretty depth (.object (f :: fields)) =
        '{' :: (prettyFields (depth + 1) (f :: fields) ++ (newline depth ++ ['}'])) := by
      rw [pretty, List.append_assoc]
      rfl
    refine ⟨fun depth => ⟨'{', _, hpretty depth, rfl, by decide⟩, fun depth fuel rest hfuel => ?_⟩
    rw [hpretty] at *
    obtain ⟨fuel, rfl⟩ : ∃ n, fuel = n + 1 := ⟨fuel - 1, by simp at hfuel; omega⟩
    have hfields : (prettyFields (depth + 1) (f :: fields)).length ≤ fuel := by
      simp only [List.length_append, List.length_cons] at hfuel
      omega
    have hclosed : skipSpace (newline depth ++ ['}'] ++ rest) = '}' :: rest := by
      rw [List.append_assoc, skipSpace_newline]
      rfl
    have hread := readValue_object rfl (skipSpace_fields (depth + 1) f fields _)
      (readFields_pretty h (List.cons_ne_nil f fields) hfields hclosed)
    rw [ofPairs_of_nodup hdistinct] at hread
    rw [List.cons_append, List.append_assoc]
    exact hread

theorem readsBack_text (s : String) : (Json.text s).ReadsBack := by
  refine ⟨fun depth => ⟨'"', _, rfl, rfl, by decide⟩, fun depth fuel rest hfuel => ?_⟩
  obtain ⟨fuel, rfl⟩ : ∃ n, fuel = n + 1 := ⟨fuel - 1, by simp [pretty, quote] at hfuel; omega⟩
  rw [pretty] at *
  have hread := readText_quote s hfuel rest
  rw [quote, List.cons_append, List.cons_append, List.append_assoc, List.singleton_append]
  simp only [readValue, hread]
  rfl

theorem readsBack_null : Json.null.ReadsBack := by
  refine ⟨fun depth => ⟨'n', ['u', 'l', 'l'], rfl, rfl, by decide⟩, fun depth fuel rest hfuel => ?_⟩
  obtain ⟨fuel, rfl⟩ := Nat.exists_eq_add_of_lt hfuel
  rfl

theorem readsBack_bool (b : Bool) : (Json.bool b).ReadsBack := by
  cases b with
  | false =>
    refine ⟨fun depth => ⟨'f', ['a', 'l', 's', 'e'], rfl, rfl, by decide⟩,
      fun depth fuel rest hfuel => ?_⟩
    obtain ⟨fuel, rfl⟩ := Nat.exists_eq_add_of_lt hfuel
    rfl
  | true =>
    refine ⟨fun depth => ⟨'t', ['r', 'u', 'e'], rfl, rfl, by decide⟩,
      fun depth fuel rest hfuel => ?_⟩
    obtain ⟨fuel, rfl⟩ := Nat.exists_eq_add_of_lt hfuel
    rfl

theorem Wordy.readsBack (h : v.Wordy) : v.ReadsBack := by
  induction h with
  | null => exact readsBack_null
  | bool b => exact readsBack_bool b
  | text s => exact readsBack_text s
  | list items _ ih => exact readsBack_list ih
  | object fields distinct _ ih => exact readsBack_object distinct ih

/-- A value without numbers is read back from its printed form. -/
theorem Wordy.read_pretty (h : v.Wordy) (depth : ℕ) : read (pretty depth v) = .ok v := by
  have hskip : skipSpace (pretty depth v) = pretty depth v := by
    have hpretty := h.readsBack.skipSpace_pretty depth []
    rwa [List.append_nil] at hpretty
  have hread := h.readsBack.reads depth (2 * (pretty depth v).length + 2) [] (by omega)
  rw [List.append_nil] at hread
  simp only [read, hskip, hread, bind, Except.bind]
  rfl

/-- All characters are in ASCII. -/
def IsAscii (cs : List Char) : Prop := ∀ c ∈ cs, c.toNat < 128

theorem isAscii_nil : IsAscii [] := fun _ hc => absurd hc List.not_mem_nil

theorem isAscii_append {cs ds : List Char} : IsAscii (cs ++ ds) ↔ IsAscii cs ∧ IsAscii ds :=
  List.forall_mem_append

theorem isAscii_cons {c : Char} {cs : List Char} :
    IsAscii (c :: cs) ↔ c.toNat < 128 ∧ IsAscii cs := List.forall_mem_cons

theorem isAscii_newline (depth : ℕ) : IsAscii (newline depth) := by
  refine isAscii_cons.mpr ⟨by decide, fun c hc => ?_⟩
  rw [List.eq_of_mem_replicate hc]
  decide

theorem isAscii_unitEscape (n : ℕ) : IsAscii (unitEscape n) := by
  have hdigit : ∀ d < 16, (Number.hexDigit d).toNat < 128 := by decide
  have hmod (k : ℕ) : (Number.hexDigit (k % 16)).toNat < 128 := hdigit _ (Nat.mod_lt k (by omega))
  intro c hc
  simp only [unitEscape, toList_hex, List.mem_cons, List.not_mem_nil, or_false] at hc
  rcases hc with rfl | rfl | rfl | rfl | rfl | rfl
  · decide
  · decide
  all_goals exact hmod _

theorem isAscii_quoteChar (c : Char) : IsAscii (quoteChar .ascii c) := by
  unfold quoteChar
  split
  case h_8 =>
    split
    · rename_i hkept
      simp only [Charset.keeps, Bool.and_eq_true, decide_eq_true_eq] at hkept
      rintro d hd
      rw [List.mem_singleton.mp hd]
      omega
    · unfold charEscape
      dsimp only
      split
      · exact isAscii_unitEscape _
      · exact isAscii_append.mpr ⟨isAscii_unitEscape _, isAscii_unitEscape _⟩
  all_goals exact isAscii_cons.mpr ⟨by decide, isAscii_cons.mpr ⟨by decide, isAscii_nil⟩⟩

theorem isAscii_quote (s : String) : IsAscii (quote .ascii s) := by
  refine isAscii_cons.mpr ⟨by decide, isAscii_append.mpr ⟨fun c hc => ?_, by simp [IsAscii]⟩⟩
  obtain ⟨d, -, hd⟩ := List.mem_flatMap.mp hc
  exact isAscii_quoteChar d c hd

theorem isAscii_items (h : ∀ v ∈ items, ∀ depth, IsAscii (pretty depth v)) (depth : ℕ) :
    IsAscii (prettyItems depth items) := by
  induction items with
  | nil => exact isAscii_nil
  | cons v items ih =>
    obtain ⟨hv, hitems⟩ := List.forall_mem_cons.mp h
    have hfirst := isAscii_append.mpr ⟨isAscii_newline depth, hv depth⟩
    cases items with
    | nil =>
      rw [prettyItems_singleton]
      exact hfirst
    | cons w items =>
      rw [prettyItems_cons_cons]
      exact isAscii_append.mpr ⟨hfirst, isAscii_cons.mpr ⟨by decide, ih hitems⟩⟩

theorem isAscii_fields (h : ∀ f ∈ fields, ∀ depth, IsAscii (pretty depth f.2)) (depth : ℕ) :
    IsAscii (prettyFields depth fields) := by
  induction fields with
  | nil => exact isAscii_nil
  | cons f fields ih =>
    obtain ⟨name, v⟩ := f
    obtain ⟨hv, hfields⟩ := List.forall_mem_cons.mp h
    have hfirst : IsAscii (fieldLine depth name v) :=
      isAscii_append.mpr ⟨isAscii_append.mpr ⟨isAscii_newline depth, isAscii_quote name⟩,
        isAscii_cons.mpr ⟨by decide, isAscii_cons.mpr ⟨by decide, hv depth⟩⟩⟩
    cases fields with
    | nil =>
      rw [prettyFields_singleton]
      exact hfirst
    | cons g fields =>
      rw [prettyFields_cons_cons]
      exact isAscii_append.mpr ⟨hfirst, isAscii_cons.mpr ⟨by decide, ih hfields⟩⟩

theorem isAscii_closed {opening closing : Char} {inner : List Char} (ho : opening.toNat < 128)
    (hc : closing.toNat < 128) (h : IsAscii inner) (depth : ℕ) :
    IsAscii (opening :: inner ++ newline depth ++ [closing]) := by
  simp only [isAscii_append, isAscii_cons]
  exact ⟨⟨⟨ho, h⟩, isAscii_newline depth⟩, hc, isAscii_nil⟩

/-- A value without numbers is printed in ASCII. -/
theorem Wordy.isAscii_pretty (h : v.Wordy) (depth : ℕ) : IsAscii (pretty depth v) := by
  induction h generalizing depth with
  | null => simp [pretty, IsAscii]
  | bool b => cases b <;> simp [pretty, IsAscii]
  | text s => exact isAscii_quote s
  | list items _ ih =>
    cases items with
    | nil => simp [pretty, IsAscii]
    | cons v items =>
      rw [pretty]
      exact isAscii_closed (by decide) (by decide) (isAscii_items ih _) depth
  | object fields _ _ ih =>
    cases fields with
    | nil => simp [pretty, IsAscii]
    | cons f fields =>
      rw [pretty]
      exact isAscii_closed (by decide) (by decide) (isAscii_fields ih _) depth

end Json

end PlatformRoutes
