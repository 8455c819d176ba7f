import PlatformRoutes.Proofs.RefusedValues

namespace PlatformRoutes.Yaml

namespace Decoder

variable {d e last : Decoder} {bytes more : List UInt8} {cs cs' : List Char} {b : UInt8}

theorem decode_cons (h : d.next? b.toNat = some e) (hrest : e.decode bytes = some (cs, last)) :
    d.decode (b :: bytes) = some (if e.owed = 0 then .ofNat e.bits :: cs else cs, last) := by
  rw [decode, h, Option.bind_eq_bind, Option.bind_some, hrest]
  rfl

theorem decode_cons_inv (h : d.decode (b :: bytes) = some (cs, last)) :
    ∃ e rest, d.next? b.toNat = some e ∧ e.decode bytes = some (rest, last) ∧
      cs = if e.owed = 0 then .ofNat e.bits :: rest else rest := by
  rw [decode] at h
  obtain ⟨e, hnext, h⟩ := Option.bind_eq_some_iff.mp h
  obtain ⟨⟨rest, last'⟩, hrest, h⟩ := Option.bind_eq_some_iff.mp h
  cases h
  exact ⟨e, rest, hnext, hrest, rfl⟩

/-- Every character takes a byte at least. -/
theorem length_le_of_decode (h : d.decode bytes = some (cs, last)) : cs.length ≤ bytes.length := by
  induction bytes generalizing d cs with
  | nil =>
    cases h
    exact Nat.le_refl 0
  | cons b bytes ih =>
    obtain ⟨e, rest, -, hrest, rfl⟩ := decode_cons_inv h
    have hlength := ih hrest
    split
    · exact Nat.succ_le_succ hlength
    · exact Nat.le_succ_of_le hlength

/-- What is decoded in two pieces is decoded in one. -/
theorem decode_append (h : d.decode bytes = some (cs, e)) (hmore : e.decode more = some (cs', last)) :
    d.decode (bytes ++ more) = some (cs ++ cs', last) := by
  induction bytes generalizing d cs with
  | nil =>
    cases h
    exact hmore
  | cons b bytes ih =>
    obtain ⟨f, rest, hnext, hrest, rfl⟩ := decode_cons_inv h
    rw [List.cons_append, decode_cons hnext (ih hrest)]
    split <;> rfl

/-- What is decoded in one piece is decoded in two. -/
theorem decode_append_inv (h : d.decode (bytes ++ more) = some (cs, last)) :
    ∃ front e back, d.decode bytes = some (front, e) ∧ e.decode more = some (back, last) ∧
      cs = front ++ back := by
  induction bytes generalizing d cs with
  | nil => exact ⟨[], d, cs, rfl, h, rfl⟩
  | cons b bytes ih =>
    obtain ⟨f, rest, hnext, hrest, rfl⟩ := decode_cons_inv h
    obtain ⟨front, e, back, hfront, hback, rfl⟩ := ih hrest
    refine ⟨_, e, back, decode_cons hnext hfront, hback, ?_⟩
    split <;> rfl

@[simp] theorem owing_owed (owed bits : Nat) : (owing owed bits).owed = owed := rfl

theorem next?_of_owed {n : Nat} (h : d.owed = 0) : d.next? n = first? n := if_pos h

theorem next?_of_range {n : Nat} (h : d.owed ≠ 0) (hleast : d.least ≤ n) (hgreatest : n ≤ d.greatest) :
    d.next? n = some (owing (d.owed - 1) (d.bits * 64 + (n - 0x80))) := by
  have hrange : (decide (d.least ≤ n) && decide (n ≤ d.greatest)) = true := by
    simp [hleast, hgreatest]
  exact (if_neg h).trans (if_pos hrange)

/-- The bits of a character before those that some last bytes hold. -/
def upperBits (v : Nat) : Nat → Nat
  | 0 => v
  | more + 1 => upperBits v more / 64

theorem upperBits_two (v : Nat) : upperBits v 2 = v / 4096 := Nat.div_div_eq_div_mul v 64 64

theorem upperBits_three (v : Nat) : upperBits v 3 = v / 262144 := by
  rw [upperBits, upperBits_two, Nat.div_div_eq_div_mul]

/-- The byte of a character that is followed by some more. -/
def tailByte (v more : Nat) : Nat := upperBits v more % 64 + 0x80

/-- The last bytes of a character. -/
def tailBytes (v : Nat) : Nat → List UInt8
  | 0 => []
  | more + 1 => .ofNat (tailByte v more) :: tailBytes v more

theorem tailByte_toNat (v more : Nat) : (UInt8.ofNat (tailByte v more)).toNat = tailByte v more := by
  rw [UInt8.toNat_ofNat', tailByte]
  omega

/-- The decoder is owed the last bytes of a character, of which it has the other bits, and takes the
first of them. -/
structure Awaits (d : Decoder) (v more : Nat) : Prop where
  owed : d.owed = more + 1
  bits : d.bits = upperBits v (more + 1)
  least : d.least ≤ tailByte v more
  greatest : tailByte v more ≤ d.greatest

theorem awaits_owing (v more : Nat) :
    (owing (more + 1) (upperBits v (more + 1))).Awaits v more := by
  refine ⟨rfl, rfl, Nat.le_add_left _ _, ?_⟩
  show upperBits v more % 64 + 0x80 ≤ 0xBF
  omega

theorem Awaits.next? {v more : Nat} (h : d.Awaits v more) :
    d.next? (UInt8.ofNat (tailByte v more)).toNat = some (owing more (upperBits v more)) := by
  rw [tailByte_toNat, next?_of_range (by simp [h.owed]) h.least h.greatest, h.owed, h.bits, tailByte,
    Nat.add_sub_cancel, Nat.add_sub_cancel, upperBits, Nat.div_add_mod']

/-- The last bytes complete the character. -/
theorem Awaits.decode {v more : Nat} (h : d.Awaits v more) :
    ∃ e, e.owed = 0 ∧ d.decode (tailBytes v (more + 1)) = some ([.ofNat v], e) := by
  induction more generalizing d with
  | zero => exact ⟨owing 0 v, rfl, decode_cons h.next? rfl⟩
  | succ more ih =>
    obtain ⟨e, howed, hrest⟩ := ih (awaits_owing v more)
    exact ⟨e, howed, decode_cons h.next? hrest⟩

theorem first?_two {v : Nat} (h : 0x7F < v) (h' : v ≤ 0x7FF) :
    first? (upperBits v 1 + 0xC0) = some (owing 1 (upperBits v 1)) := by
  have hbits : upperBits v 1 = v / 64 := rfl
  rw [first?, if_neg (by omega), if_neg (by omega), if_pos (by omega), Nat.add_sub_cancel]

/-- The second byte rules out longer forms than are needed, and the halves of pairs. -/
theorem first?_three {v : Nat} (h : 0x7FF < v) (h' : v ≤ 0xFFFF) (hvalid : v.isValidChar) :
    ∃ d, first? (upperBits v 2 + 0xE0) = some d ∧ d.Awaits v 1 := by
  rw [Nat.isValidChar] at hvalid
  have hbits := upperBits_two v
  have htail : tailByte v 1 = v / 64 % 64 + 0x80 := rfl
  by_cases hshort : upperBits v 2 = 0
  · refine ⟨⟨2, 0xA0, 0xBF, 0⟩, by rw [hshort]; rfl, rfl, hshort.symm, ?_, ?_⟩ <;>
      dsimp only <;> omega
  by_cases hhalf : upperBits v 2 = 0xD
  · refine ⟨⟨2, 0x80, 0x9F, 0xD⟩, by rw [hhalf]; rfl, rfl, hhalf.symm, ?_, ?_⟩ <;>
      dsimp only <;> omega
  refine ⟨owing 2 (upperBits v 2), ?_, awaits_owing v 1⟩
  rw [first?, if_neg (by omega), if_neg (by omega), if_neg (by omega), if_neg (by simpa using hshort),
    if_neg (by simpa using hhalf), if_pos (by omega), Nat.add_sub_cancel]

theorem first?_four {v : Nat} (h : 0xFFFF < v) (h' : v < 0x110000) :
    ∃ d, first? (upperBits v 3 + 0xF0) = some d ∧ d.Awaits v 2 := by
  have hbits := upperBits_three v
  have htail : tailByte v 2 = upperBits v 2 % 64 + 0x80 := rfl
  rw [upperBits_two] at htail
  by_cases hshort : upperBits v 3 = 0
  · refine ⟨⟨3, 0x90, 0xBF, 0⟩, by rw [hshort]; rfl, rfl, hshort.symm, ?_, ?_⟩ <;>
      dsimp only <;> omega
  by_cases hlong : upperBits v 3 = 4
  · refine ⟨⟨3, 0x80, 0x8F, 4⟩, by rw [hlong]; rfl, rfl, hlong.symm, ?_, ?_⟩ <;>
      dsimp only <;> omega
  refine ⟨owing 3 (upperBits v 3), ?_, awaits_owing v 2⟩
  rw [first?, if_neg (by omega), if_neg (by omega), if_neg (by omega), if_neg (by simp),
    if_neg (by simp), if_neg (by omega), if_neg (by simpa using hshort), if_pos (by omega),
    Nat.add_sub_cancel]

/-- A character has its standard bytes. -/
theorem utf8EncodeChar_eq (c : Char) :
    String.utf8EncodeChar c =
      let v := c.val.toNat
      if v ≤ 0x7F then [.ofNat v]
      else if v ≤ 0x7FF then .ofNat (upperBits v 1 + 0xC0) :: tailBytes v 1
      else if v ≤ 0xFFFF then .ofNat (upperBits v 2 + 0xE0) :: tailBytes v 2
      else .ofNat (upperBits v 3 + 0xF0) :: tailBytes v 3 := by
  have hvalid : c.val.toNat.isValidChar := c.valid
  rw [Nat.isValidChar] at hvalid
  unfold String.utf8EncodeChar
  dsimp only
  generalize c.val.toNat = v at hvalid
  have hfour : v / 262144 % 8 = v / 262144 := by omega
  split
  · rfl
  split
  · have htwo : v / 64 % 32 = v / 64 := by omega
    simp [tailBytes, tailByte, upperBits, htwo]
  split
  · have hthree : v / 4096 % 16 = v / 4096 := by omega
    simp [tailBytes, tailByte, upperBits, Nat.div_div_eq_div_mul, hthree]
  · simp [tailBytes, tailByte, upperBits, Nat.div_div_eq_div_mul, hfour]

theorem next?_byte {n : Nat} (h : d.owed = 0) (hn : n < 256) :
    d.next? (UInt8.ofNat n).toNat = first? n := by
  rw [UInt8.toNat_ofNat', Nat.mod_eq_of_lt hn, next?_of_owed h]

/-- The bytes of a character are decoded to it, wherever no bytes are owed. -/
theorem decode_utf8EncodeChar (h : d.owed = 0) (c : Char) :
    ∃ e, e.owed = 0 ∧ d.decode (String.utf8EncodeChar c) = some ([c], e) := by
  have hvalid : c.val.toNat.isValidChar := c.valid
  have hself : Char.ofNat c.val.toNat = c := Char.ofNat_toNat c
  have hmany {n more : Nat} (hn : n < 256) (h' : ∃ f, first? n = some f ∧ f.Awaits c.val.toNat more) :
      ∃ e, e.owed = 0 ∧ d.decode (.ofNat n :: tailBytes c.val.toNat (more + 1)) = some ([c], e) := by
    obtain ⟨f, hfirst, hawaits⟩ := h'
    obtain ⟨e, howed, hrest⟩ := hawaits.decode
    refine ⟨e, howed, ?_⟩
    rw [decode_cons ((next?_byte h hn).trans hfirst) hrest, hawaits.owed,
      if_neg (Nat.succ_ne_zero more), hself]
  have honeBits : upperBits c.val.toNat 1 = c.val.toNat / 64 := rfl
  have htwoBits := upperBits_two c.val.toNat
  have hthreeBits := upperBits_three c.val.toNat
  rw [Nat.isValidChar] at hvalid
  rw [utf8EncodeChar_eq]
  dsimp only
  split
  · rename_i hone
    have hfirst : first? c.val.toNat = some (owing 0 c.val.toNat) := if_pos hone
    refine ⟨owing 0 c.val.toNat, rfl, ?_⟩
    rw [decode_cons ((next?_byte h (by omega)).trans hfirst) rfl, if_pos (owing_owed 0 _)]
    exact congrArg (fun c => some ([c], _)) hself
  split
  · rename_i hone htwo
    exact hmany (by omega) ⟨_, first?_two (by omega) htwo, awaits_owing _ 0⟩
  split
  · rename_i htwo hthree
    exact hmany (by omega) (first?_three (by omega) hthree c.valid)
  · exact hmany (by omega) (first?_four (by omega) (by omega))

/-- A text is what its bytes are decoded to. -/
theorem decode_text (h : d.owed = 0) (cs : List Char) :
    ∃ e, e.owed = 0 ∧ d.decode (cs.flatMap String.utf8EncodeChar) = some (cs, e) := by
  induction cs generalizing d with
  | nil => exact ⟨d, h, rfl⟩
  | cons c cs ih =>
    obtain ⟨e, he, hchar⟩ := decode_utf8EncodeChar h c
    obtain ⟨last, hlast, hrest⟩ := ih he
    exact ⟨last, hlast, decode_append hchar hrest⟩

end Decoder

theorem lineFeeds_return {cs : List Char} (h : cs.head? ≠ some '\n') :
    lineFeeds ('\r' :: cs) = '\n' :: lineFeeds cs := by
  cases cs with
  | nil => rfl
  | cons c cs =>
    rw [lineFeeds]
    rintro rest ⟨⟩
    exact h rfl

theorem lineFeeds_cons {c : Char} {cs : List Char} (h : c ≠ '\r') :
    lineFeeds (c :: cs) = c :: lineFeeds cs := by
  rw [lineFeeds]
  · rintro rest rfl
    exact fun _ => h rfl
  · exact h

/-- Text is cut without a change to its line breaks, unless one is cut in two. -/
theorem lineFeeds_append {front back : List Char}
    (h : front.getLast? = some '\r' → back.head? ≠ some '\n') :
    lineFeeds (front ++ back) = lineFeeds front ++ lineFeeds back := by
  have hrest {c : Char} {rest : List Char}
      (h : (c :: rest).getLast? = some '\r' → back.head? ≠ some '\n') :
      rest.getLast? = some '\r' → back.head? ≠ some '\n' := fun hlast => h (by
    rw [List.getLast?_cons, hlast]
    rfl)
  fun_induction lineFeeds front with
  | case1 rest ih =>
    exact congrArg ('\n' :: ·) (ih (hrest (hrest h)))
  | case2 rest hnot ih =>
    have hhead : (rest ++ back).head? ≠ some '\n' := by
      cases rest with
      | nil => exact h rfl
      | cons c rest =>
        intro hc
        cases hc
        exact hnot rest rfl
    rw [List.cons_append, lineFeeds_return hhead, ih (hrest h), List.cons_append]
  | case3 c rest hone htwo ih =>
    rw [List.cons_append, lineFeeds_cons htwo, ih (hrest h), List.cons_append]
  | case4 => rfl

theorem withheld_append (cs : List Char) : (withheld cs).1 ++ (withheld cs).2 = cs := by
  unfold withheld
  split
  · rename_i h
    obtain ⟨front, rfl⟩ := List.getLast?_eq_some_iff.mp (eq_of_beq h)
    exact congrArg (· ++ ['\r']) List.dropLast_concat
  · exact List.append_nil cs

theorem lineFeeds_withheld (cs more : List Char) :
    lineFeeds (cs ++ more) = lineFeeds (withheld cs).1 ++ lineFeeds ((withheld cs).2 ++ more) := by
  rw [← lineFeeds_append, ← List.append_assoc, withheld_append]
  unfold withheld
  split
  · exact fun _ => nofun
  · rename_i h
    exact fun hlast => absurd (beq_of_eq hlast) h

namespace Stream

/-- The text that comes out of a file from here on, if its bytes are one. -/
def Holds (s : Stream) (text : List Char) : Prop :=
  ∃ cs d, s.decoder.decode s.bytes = some (cs, d) ∧ d.owed = 0 ∧
    text = s.ready ++ lineFeeds (s.held ++ cs)

variable {s : Stream} {text : List Char}

/-- Whatever is decoded next, the text is the same. -/
theorem Holds.decode (h : s.Holds text) (size : Nat) :
    ∃ t, s.decode size = .ok t ∧ t.Holds text ∧ t.bytes = s.bytes.drop size := by
  obtain ⟨cs, d, hdecode, howed, rfl⟩ := h
  rw [← List.take_append_drop size s.bytes] at hdecode
  obtain ⟨front, e, back, hfront, hback, rfl⟩ := Decoder.decode_append_inv hdecode
  unfold Stream.decode
  rw [hfront]
  refine ⟨_, rfl, ⟨back, d, hback, howed, ?_⟩, rfl⟩
  rw [← List.append_assoc, lineFeeds_withheld, List.append_assoc]

/-- Once there are no more bytes, all of the text is ready. -/
theorem Holds.finish (h : s.Holds text) (hbytes : s.bytes = []) :
    ∃ t, s.finish = .ok t ∧ t.Holds text ∧ t.ready = text := by
  obtain ⟨cs, d, hdecode, howed, rfl⟩ := h
  rw [hbytes] at hdecode
  cases hdecode
  refine ⟨_, if_pos howed, ⟨[], s.decoder, ?_, howed, ?_⟩, ?_⟩
  · rw [hbytes]
    rfl
  · rw [List.append_nil]
    exact (List.append_nil _).symm
  · rw [List.append_nil]

/-- Enough characters get ready, or all of the text does. -/
theorem Holds.fill (h : s.Holds text) (wanted : Nat) {fuel : Nat} (hfuel : s.bytes.length < fuel) :
    ∃ t, s.fill wanted fuel = .ok t ∧ t.Holds text ∧
      (wanted ≤ t.ready.length ∨ t.ready = text) := by
  induction fuel generalizing s with
  | zero => exact absurd hfuel (Nat.not_lt_zero _)
  | succ fuel ih =>
    unfold Stream.fill
    split
    · rename_i henough
      exact ⟨s, rfl, h, .inl henough⟩
    split
    · rename_i hbytes
      obtain ⟨t, hfinish, ht, hready⟩ := h.finish (List.isEmpty_iff.mp hbytes)
      exact ⟨t, hfinish, ht, .inr hready⟩
    · rename_i hbytes
      obtain ⟨t, hdecode, ht, hrest⟩ := h.decode (s.pieceSize (wanted - s.ready.length))
      have hsize : 0 < s.pieceSize (wanted - s.ready.length) :=
        Nat.lt_of_lt_of_le (by decide : 0 < leastPiece) (Nat.le_max_left _ _)
      have hlength : 0 < s.bytes.length := List.length_pos_iff.mpr (by simpa using hbytes)
      rw [hdecode]
      refine ih ht ?_
      rw [hrest, List.length_drop]
      omega

/-- What is read is what comes next in the text. -/
theorem Holds.read (h : s.Holds text) :
    ∃ t, s.read = .ok (text.take readSize, t) ∧ t.Holds (text.drop readSize) := by
  obtain ⟨t, hfill, ⟨cs, d, hdecode, howed, htext⟩, hready⟩ := h.fill readSize (Nat.lt_succ_self _)
  have htake : t.ready.take readSize = text.take readSize := by
    rcases hready with henough | hall
    · rw [htext, List.take_append_of_le_length henough]
    · rw [hall]
  have hdrop : text.drop readSize = t.ready.drop readSize ++ lineFeeds (t.held ++ cs) := by
    rcases hready with henough | hall
    · rw [htext, List.drop_append_of_le_length henough]
    · rw [hall] at htext
      rw [hall, List.self_eq_append_right.mp htext, List.append_nil]
  refine ⟨{ t with ready := t.ready.drop readSize }, ?_, cs, d, hdecode, howed, hdrop⟩
  rw [Stream.read, hfill, ← htake]
  rfl

theorem Holds.reads (h : s.Holds text) (n : Nat) :
    ∃ t, s.reads n = .ok (text.take (n * readSize), t) ∧ t.Holds (text.drop (n * readSize)) := by
  induction n generalizing s text with
  | zero =>
    rw [Nat.zero_mul]
    exact ⟨s, rfl, h⟩
  | succ n ih =>
    obtain ⟨t, hread, ht⟩ := h.read
    obtain ⟨u, hreads, hu⟩ := ih ht
    rw [List.drop_drop, Nat.add_comm, ← Nat.succ_mul] at hu
    refine ⟨u, ?_, hu⟩
    have htake : text.take ((n + 1) * readSize) =
        text.take readSize ++ (text.drop readSize).take (n * readSize) := by
      rw [Nat.succ_mul, Nat.add_comm, List.take_add]
    rw [Stream.reads, hread, htake]
    show (t.reads n >>= fun p => .ok (text.take readSize ++ p.1, p.2)) = _
    rw [hreads]
    rfl

/-- Where all of the text can be printed, all of it is had. -/
theorem Holds.loads (h : s.Holds text) (hprintable : text.all isPrintable = true) {fuel n : Nat}
    (hn : 0 < n) (hfuel : text.length < fuel) : s.loads fuel n = (text, none) := by
  induction fuel generalizing s text n with
  | zero => exact absurd hfuel (Nat.not_lt_zero _)
  | succ fuel ih =>
    obtain ⟨t, hreads, ht⟩ := h.reads n
    have hsize : 0 < n * readSize := Nat.mul_pos hn (Nat.succ_pos _)
    rw [Stream.loads, hreads]
    cases htext : text.take (n * readSize) with
    | nil =>
      have hnil : text = [] := by
        rcases List.take_eq_nil_iff.mp htext with hzero | hnil
        · omega
        · exact hnil
      rw [hnil]
    | cons c cs =>
      have hsplit : c :: cs ++ text.drop (n * readSize) = text := by
        rw [← htext, List.take_append_drop]
      rw [← hsplit, List.all_append, Bool.and_eq_true] at hprintable
      have hlength : (text.drop (n * readSize)).length < fuel := by
        have hcut := congrArg List.length hsplit
        rw [List.length_append, List.length_cons] at hcut
        omega
      dsimp only
      rw [if_pos hprintable.1, ih ht hprintable.2 Nat.one_pos hlength, hsplit]

end Stream

theorem lineFeeds_length_le (cs : List Char) : (lineFeeds cs).length ≤ cs.length := by
  fun_induction lineFeeds cs with
  | case1 rest ih => exact Nat.succ_le_succ (Nat.le_succ_of_le ih)
  | case2 rest hnot ih => exact Nat.succ_le_succ ih
  | case3 c rest hone htwo ih => exact Nat.succ_le_succ ih
  | case4 => exact Nat.le_refl 0

/-- The bytes of a text that can be printed are read as the text, however they are cut into pieces. -/
theorem Source.ofBytes_text (text : String) (h : (lineFeeds text.toList).all isPrintable = true) :
    Source.ofBytes text.toUTF8 = .start (lineFeeds text.toList) none := by
  have hbytes : text.toUTF8.data.toList = text.toList.flatMap String.utf8EncodeChar := by
    rw [String.toUTF8_eq_toByteArray, ← String.utf8Encode_toList, List.utf8Encode,
      List.data_toByteArray]
  obtain ⟨d, howed, hdecode⟩ := Decoder.decode_text (Decoder.owing_owed 0 0) text.toList
  have hholds : (Stream.ofBytes text.toUTF8.data.toList).Holds (lineFeeds text.toList) :=
    ⟨text.toList, d, by rw [hbytes]; exact hdecode, howed, rfl⟩
  have hfuel : (lineFeeds text.toList).length < text.toUTF8.size + 2 := by
    have hchars := Decoder.length_le_of_decode hdecode
    rw [← hbytes] at hchars
    have hlines := lineFeeds_length_le text.toList
    have hsize : text.toUTF8.data.toList.length = text.toUTF8.size := Array.length_toList
    omega
  unfold Source.ofBytes
  rw [hholds.loads h (by decide) hfuel]

/-- A printable text is read as a document of its own, wherever its file is cut into pieces. -/
theorem load_text (text : String) (h : (lineFeeds text.toList).all isPrintable = true) :
    load text.toUTF8 = read (.start (lineFeeds text.toList) none) := by
  rw [load, Source.ofBytes_text text h]

namespace Stream

theorem decode_textual (s : Stream) (size : Nat) : Textual (s.decode size) := by
  unfold Stream.decode
  split
  · exact Leads.error rfl
  · exact Leads.ok trivial

theorem fill_textual (wanted fuel : Nat) (s : Stream) : Textual (s.fill wanted fuel) := by
  induction fuel generalizing s with
  | zero => exact Leads.ok trivial
  | succ fuel ih =>
    refine Leads.ite (.ok trivial) (.ite (.ite (.ok trivial) (.error rfl)) ?_)
    exact Leads.bind (decode_textual s _) fun t _ => ih t

theorem reads_textual (n : Nat) (s : Stream) : Textual (s.reads n) := by
  induction n generalizing s with
  | zero => exact Leads.ok trivial
  | succ n ih =>
    have hread : Textual s.read := Leads.bind (fill_textual _ _ s) fun _ _ => .ok trivial
    exact Leads.bind hread fun p _ => Leads.bind (ih p.2) fun _ _ => .ok trivial

theorem loads_stop {fault : Fault} (fuel n : Nat) (s : Stream)
    (h : (s.loads fuel n).2 = some fault) : fault.isTextual = true := by
  induction fuel generalizing s n with
  | zero => cases h
  | succ fuel ih =>
    have htextual := reads_textual n s
    unfold Stream.loads at h
    cases hreads : s.reads n with
    | error e =>
      rw [hreads] at h htextual
      cases h
      exact htextual
    | ok p =>
      rw [hreads] at h
      obtain ⟨cs, t⟩ := p
      cases cs with
      | nil => cases h
      | cons c cs =>
        dsimp only at h
        split at h
        · exact ih 1 t h
        · cases h
          rfl

end Stream

/-- Only a fault of the text stops a file short. -/
theorem Source.ofBytes_sound (bytes : ByteArray) : (Source.ofBytes bytes).Sound :=
  fun _ => Stream.loads_stop (bytes.size + 2) 2 (.ofBytes bytes.data.toList)

/-- Bytes that cannot be read are no text of the grammar, or a value of their document is refused by
its type. -/
theorem load_fails {bytes : ByteArray} {fault : Fault} (h : load bytes = .error fault) :
    fault.isTextual = true ∨ ∃ root part, Node.read (.ofBytes bytes) = .ok (some root) ∧
      root.Within part ∧ part.datum = .error fault :=
  read_fails (Source.ofBytes_sound bytes) h

end PlatformRoutes.Yaml
