import PlatformRoutes.Proofs.Assignments

namespace PlatformRoutes

namespace Text

variable {p : Char → Bool} {cs : List Char}

theorem trimRight_eq_self (h : ∀ c, cs.getLast? = some c → p c = false) : trimRight p cs = cs := by
  refine List.rdropWhile_eq_self_iff.mpr fun hne hlast => ?_
  rw [h _ (List.getLast?_eq_some_getLast hne)] at hlast
  cases hlast

theorem length_trimRight_le (p : Char → Bool) (cs : List Char) :
    (trimRight p cs).length ≤ cs.length := (List.rdropWhile_prefix p cs).length_le

end Text

namespace Setting

open Text (isBlank trimRight trim Trimmed)

variable {t url : String}

/-- A blank stands right before the slashes at the end of a text, not counting the blanks around it.
It comes to the end when the slashes go, and by then the blanks are gone already. -/
def EndsApart (t : String) : Prop :=
  ∃ front c n, trim isBlank t.toList = front ++ c :: List.replicate (n + 1) '/' ∧ isBlank c = true

theorem address_cases (t : String) :
    (∃ url, address t = .ok url) ∨ address t = .fault .rejected := by
  unfold address
  dsimp only
  split
  · exact .inl ⟨_, rfl⟩
  · exact .inr rfl

theorem address_eq_ok (h : address t = .ok url) :
    url.toList = trimRight (· == '/') (trim isBlank t.toList) ∧ isWebAddress url = true := by
  unfold address at h
  dsimp only at h
  split at h
  · rename_i hweb
    rw [← Checked.ok.inj h]
    refine ⟨?_, hweb⟩
    rw [Text.stripRight, Text.strip, String.toList_ofList, String.toList_ofList]
  · cases h

/-- A web address begins with the first letter of its scheme. -/
theorem head?_of_isWebAddress (h : isWebAddress url = true) : url.toList.head? = some 'h' := by
  rcases isWebAddress_iff.mp h with ⟨rest, hurl⟩ | ⟨rest, hurl⟩ <;> rw [← hurl] <;> rfl

theorem first_not_blank (h : isWebAddress url = true) {c : Char} (hc : url.toList.head? = some c) :
    isBlank c = false := by
  rw [head?_of_isWebAddress h] at hc
  cases hc
  rfl

/-- An accepted address ends in a blank if one stood before the slashes, and only then. -/
theorem endsApart_iff (h : address t = .ok url) :
    EndsApart t ↔ ∃ front c, url.toList = front ++ [c] ∧ isBlank c = true := by
  obtain ⟨hurl, -⟩ := address_eq_ok h
  constructor
  · rintro ⟨front, c, n, hstripped, hc⟩
    have hslash : (c == '/') = false := by
      refine beq_eq_false_iff_ne.mpr ?_
      rintro rfl
      cases hc
    have hslashes : ∀ d ∈ List.replicate (n + 1) '/', (d == '/') = true := by
      intro d hd
      rw [List.eq_of_mem_replicate hd]
      rfl
    refine ⟨front, c, ?_, hc⟩
    rw [hurl, hstripped, ← List.singleton_append, ← List.append_assoc,
      Text.trimRight_append_of_forall hslashes]
    refine Text.trimRight_eq_self fun d hd => ?_
    rw [List.getLast?_append_of_ne_nil front (List.cons_ne_nil c [])] at hd
    cases hd
    exact hslash
  · rintro ⟨front, c, hlast, hc⟩
    obtain ⟨slashes, hstripped, hslashes⟩ :=
      Text.exists_trimRight_append (· == '/') (trim isBlank t.toList)
    rw [← hurl, hlast] at hstripped
    have hreplicate : slashes = List.replicate slashes.length '/' :=
      List.eq_replicate_of_mem fun d hd => eq_of_beq (hslashes d hd)
    cases hlength : slashes.length with
    | zero =>
      -- Without a slash the blank is the last one of a text that was stripped of blanks.
      rw [List.length_eq_zero_iff.mp hlength, List.append_nil] at hstripped
      have hkept := (Text.trimmed_trim isBlank t.toList).last c (by rw [hstripped]; simp)
      rw [hkept] at hc
      cases hc
    | succ n =>
      refine ⟨front, c, n, ?_, hc⟩
      rw [hstripped, hreplicate, hlength, List.append_assoc, List.singleton_append]

/-- Without such a blank an address is its own normal form. -/
theorem address_steady (h : address t = .ok url) (hends : ¬ EndsApart t) :
    Trimmed isBlank url.toList ∧ address url = .ok url := by
  obtain ⟨-, hweb⟩ := address_eq_ok h
  have htrimmed : Trimmed isBlank url.toList := by
    refine ⟨fun c => first_not_blank hweb, fun c hc => ?_⟩
    cases hblank : isBlank c with
    | false => rfl
    | true =>
      obtain ⟨front, hurl⟩ := List.getLast?_eq_some_iff.mp hc
      exact absurd ((endsApart_iff h).mpr ⟨front, c, hurl, hblank⟩) hends
  have hslash : ∀ c, url.toList.getLast? = some c → (c == '/') = false := by
    intro c hc
    refine beq_eq_false_iff_ne.mpr ?_
    rintro rfl
    exact (admits_address h).2 hc
  refine ⟨htrimmed, ?_⟩
  have hsame : Text.stripRight '/' (Text.strip url) = url := by
    rw [Text.strip, htrimmed.trim_eq, String.ofList_toList, Text.stripRight,
      Text.trimRight_eq_self hslash, String.ofList_toList]
  unfold address
  dsimp only
  rw [hsame, if_pos hweb]

/-- With such a blank an address is refused when it is given again, or it becomes shorter. -/
theorem address_again (h : address t = .ok url) (hends : EndsApart t) :
    address url = .fault .rejected ∨
      ∃ shorter, address url = .ok shorter ∧ shorter.length < url.length := by
  obtain ⟨-, hweb⟩ := address_eq_ok h
  obtain ⟨front, c, hurl, hc⟩ := (endsApart_iff h).mp hends
  rcases address_cases url with ⟨shorter, hagain⟩ | hrefused
  · refine .inr ⟨shorter, hagain, ?_⟩
    obtain ⟨hshorter, -⟩ := address_eq_ok hagain
    have htrim : trim isBlank url.toList = trimRight isBlank front := by
      rw [trim, Text.dropWhile_eq_self fun d => first_not_blank hweb, hurl]
      exact Text.trimRight_append_of_forall (by simpa using hc)
    have hslashes := Text.length_trimRight_le (· == '/') (trimRight isBlank front)
    have hblanks := Text.length_trimRight_le isBlank front
    rw [← String.length_toList, ← String.length_toList, hshorter, htrim, hurl, List.length_append,
      List.length_singleton]
    omega
  · exact .inl hrefused

end Setting

namespace Settings

open Text (isBlank Trimmed)

variable {τ : Type} {env : Environment} {given overrides : Given} {s u : Settings} {t : String}

/-- The settings that there can be, each with the text that its address was made of: the initial
one, one from a source, or one that was assigned. -/
inductive AddressedBy : Settings → String → Prop
  | initially {env : Environment} {given : Given} {s : Settings} (h : build env given = .ok s)
      (hnone : Setting.layered env given .apiUrl = none) : AddressedBy s Setting.apiUrl.initial
  | given {env : Environment} {given : Given} {s : Settings} {d : Datum} {t : String}
      (h : build env given = .ok s) (hd : Setting.layered env given .apiUrl = some d)
      (ht : d.asText = .ok t) : AddressedBy s t
  | assigned {s u : Settings} {d : Datum} {t : String}
      (h : s.assign Setting.apiUrl.name d = .ok u) (ht : d.asText = .ok t) : AddressedBy u t
  | kept {s u : Settings} {name : String} {d : Datum} {t : String} (hs : AddressedBy s t)
      (hname : name ≠ Setting.apiUrl.name) (h : s.assign name d = .ok u) : AddressedBy u t

theorem get_of_assign {name : String} {d : Datum} (h : s.assign name d = .ok u) :
    (∀ k : Setting, k.name = name → k.check d = .ok (u.get k)) ∧
      ∀ k : Setting, k.name ≠ name → u.get k = s.get k := by
  have hassigned := s.assigned name d
  rw [h] at hassigned
  cases hassigned with
  | taken _ hself hother => exact ⟨hself, hother⟩

theorem exists_text_of_build {d : Datum} (h : build env given = .ok s)
    (hd : Setting.layered env given .apiUrl = some d) :
    ∃ t, d.asText = .ok t ∧ Setting.address t = .ok s.apiUrl := by
  have hbecomes : Setting.Becomes .apiUrl _ _ s.apiUrl := becomes_of_ofSource h .apiUrl
  rw [hd] at hbecomes
  exact Checked.andThen_eq_ok hbecomes

theorem exists_text_of_assign {d : Datum} (h : s.assign Setting.apiUrl.name d = .ok u) :
    ∃ t, d.asText = .ok t ∧ Setting.address t = .ok u.apiUrl := by
  have hcheck : Setting.check .apiUrl d = .ok u.apiUrl := (get_of_assign h).1 .apiUrl rfl
  exact Checked.andThen_eq_ok hcheck

/-- The address is what was made of the text, whichever way the settings came about. -/
theorem AddressedBy.address_eq (h : s.AddressedBy t) : Setting.address t = .ok s.apiUrl := by
  induction h with
  | @initially env given s h hnone =>
    have hinitial := becomes_of_ofSource h .apiUrl
    rw [hnone] at hinitial
    rw [show s.apiUrl = Setting.apiUrl.initial from hinitial]
    rfl
  | given h hd ht =>
    obtain ⟨t', ht', haddress⟩ := exists_text_of_build h hd
    cases ht.symm.trans ht'
    exact haddress
  | assigned h ht =>
    obtain ⟨t', ht', haddress⟩ := exists_text_of_assign h
    cases ht.symm.trans ht'
    exact haddress
  | @kept s u name d t hs hname h ih =>
    have hkept : u.apiUrl = s.apiUrl := (get_of_assign h).2 .apiUrl hname.symm
    rw [hkept]
    exact ih

theorem exists_addressedBy_of_build (h : build env given = .ok s) : ∃ t, s.AddressedBy t := by
  cases hd : Setting.layered env given .apiUrl with
  | none => exact ⟨_, .initially h hd⟩
  | some d =>
    obtain ⟨t, ht, -⟩ := exists_text_of_build h hd
    exact ⟨t, .given h hd ht⟩

theorem AddressedBy.of_assign {name : String} {d : Datum} (hs : s.AddressedBy t)
    (h : s.assign name d = .ok u) : ∃ t', u.AddressedBy t' := by
  by_cases hname : name = Setting.apiUrl.name
  · subst hname
    obtain ⟨t', ht', -⟩ := exists_text_of_assign h
    exact ⟨t', .assigned h ht'⟩
  · exact ⟨t, .kept hs hname h⟩

theorem AddressedBy.of_override {name : String} {d : Datum} (hs : s.AddressedBy t)
    (h : s.override name d = .ok u) : ∃ t', u.AddressedBy t' := by
  cases hd : Setting.notNull? d with
  | none =>
    cases d <;> cases hd
    cases h
    exact ⟨t, hs⟩
  | some e => exact hs.of_assign ((override_of_notNull s hd name).symm.trans h)

theorem accepted_eq_ok {α : Type} {x : Checked α} {a : α}
    (h : (accepted x : Except (Failure τ) α) = .ok a) : x = .ok a := by
  cases x with
  | ok b =>
    cases h
    rfl
  | faulty faults => cases h
  | misshapen => cases h

theorem AddressedBy.of_overrides (hs : s.AddressedBy t)
    (h : overrides.foldlM (fun s o => accepted (s.override o.1 o.2)) s =
      (.ok u : Except (Failure τ) Settings)) : ∃ t', u.AddressedBy t' := by
  induction overrides generalizing s t with
  | nil =>
    cases h
    exact ⟨t, hs⟩
  | cons o rest ih =>
    rw [List.foldlM_cons] at h
    obtain ⟨s', hset, hrest⟩ := Http.Parsed.bind_eq_ok h
    obtain ⟨t', hs'⟩ := hs.of_override (accepted_eq_ok hset)
    exact ih hs' hrest

theorem exists_addressedBy_of_layer
    (h : layer given env overrides = (.ok u : Except (Failure τ) Settings)) :
    ∃ t, u.AddressedBy t := by
  rw [layer_eq] at h
  split at h
  · cases h
  obtain ⟨s, hbuilt, hset⟩ := Http.Parsed.bind_eq_ok h
  obtain ⟨t, hs⟩ := exists_addressedBy_of_build (accepted_eq_ok hbuilt)
  exact hs.of_overrides hset

/-- Overrides are assignments, so settings that were loaded are among these too. -/
theorem exists_addressedBy_of_load {file : Option SettingsFile}
    (h : load file env overrides = (.ok u : Except (Failure τ) Settings)) :
    ∃ t, u.AddressedBy t := by
  obtain ⟨given, -, hlayer⟩ := Http.Parsed.bind_eq_ok h
  exact exists_addressedBy_of_layer hlayer

theorem check_apiUrl_text (t : String) :
    Setting.check .apiUrl (.text t) = Setting.address t := by
  simp only [Setting.check, Datum.asText, Checked.andThen]

theorem assign_of_address_ok {url : String} (h : Setting.address t = .ok url) :
    s.assign Setting.apiUrl.name (.text t) = .ok { s with apiUrl := url } := by
  rw [assign_name, check_apiUrl_text, h]
  rfl

theorem assign_of_address_rejected (h : Setting.address t = .fault .rejected) :
    s.assign Setting.apiUrl.name (.text t) =
      .faulty [⟨[.field Setting.apiUrl.name], .rejected⟩] := by
  rw [assign_name, check_apiUrl_text, h]
  rfl

/-- Whatever settings there can be, an address in them begins with no blank and ends in no slash.
It also ends in no blank and stays as it is when it is assigned again, except where a blank stood
right before the slashes at the end of the text that it was made of. There it ends in that blank,
and to assign it again is refused or makes it shorter. -/
theorem address_settles :
    (∀ {file : Option SettingsFile} {env : Environment} {overrides : Given} {s : Settings},
        load file env overrides = (.ok s : Except (Failure τ) Settings) →
          ∃ t, s.AddressedBy t) ∧
      ∀ {s : Settings} {t : String}, s.AddressedBy t →
        (∀ c, s.apiUrl.toList.head? = some c → isBlank c = false) ∧
        s.apiUrl.toList.getLast? ≠ some '/' ∧
        (¬ Setting.EndsApart t →
          (∀ c, s.apiUrl.toList.getLast? = some c → isBlank c = false) ∧
            s.assign "api_url" (.text s.apiUrl) = .ok s) ∧
        (Setting.EndsApart t →
          (∃ c, s.apiUrl.toList.getLast? = some c ∧ isBlank c = true) ∧
            (s.assign "api_url" (.text s.apiUrl) =
                .faulty [⟨[.field "api_url"], .rejected⟩] ∨
              ∃ u, s.assign "api_url" (.text s.apiUrl) = .ok u ∧
                u.apiUrl.length < s.apiUrl.length)) := by
  refine ⟨exists_addressedBy_of_load, fun {s t} hs => ?_⟩
  have haddress := hs.address_eq
  obtain ⟨-, hweb⟩ := Setting.address_eq_ok haddress
  refine ⟨fun c => Setting.first_not_blank hweb, (Setting.admits_address haddress).2,
    fun hends => ?_, fun hends => ⟨?_, ?_⟩⟩
  · obtain ⟨htrimmed, hsteady⟩ := Setting.address_steady haddress hends
    exact ⟨htrimmed.last, assign_of_address_ok hsteady⟩
  · obtain ⟨front, c, hurl, hc⟩ := (Setting.endsApart_iff haddress).mp hends
    exact ⟨c, List.getLast?_eq_some_iff.mpr ⟨front, hurl⟩, hc⟩
  · rcases Setting.address_again haddress hends with hrefused | ⟨shorter, hagain, hlength⟩
    · exact .inl (assign_of_address_rejected hrefused)
    · exact .inr ⟨_, assign_of_address_ok hagain, hlength⟩

def settingsAt (url : String) : Settings := ⟨url, "", none, none, 50, 1, 300, 30, true⟩

theorem address_settles_roaming :
    (build roamingEnvironment roamingGiven = .ok roamingSettings ∧
      roamingSettings.AddressedBy " https://ops.example// " ∧
      ¬ Setting.EndsApart " https://ops.example// " ∧
      roamingSettings.assign "api_url" (.text "https://ops.example") = .ok roamingSettings) ∧
    load none [] [("api_url", .text "https://api.test /")] =
        (.ok (settingsAt "https://api.test ") : Except (Failure Nat) Settings) ∧
      ∃ t, (settingsAt "https://api.test ").AddressedBy t ∧ Setting.EndsApart t := by
  constructor
  · have hbuilt : build roamingEnvironment roamingGiven = .ok roamingSettings := rfl
    have haddressed : roamingSettings.AddressedBy " https://ops.example// " :=
      .given hbuilt rfl rfl
    obtain ⟨-, -, hsteady, hagain⟩ := address_settles (τ := Nat).2 haddressed
    have hends : ¬ Setting.EndsApart " https://ops.example// " := by
      intro hends
      obtain ⟨⟨c, hlast, hblank⟩, -⟩ := hagain hends
      cases hlast
      cases hblank
    exact ⟨hbuilt, haddressed, hends, (hsteady hends).2⟩
  · have hloaded : load none [] [("api_url", .text "https://api.test /")] =
        (.ok (settingsAt "https://api.test ") : Except (Failure Nat) Settings) := rfl
    obtain ⟨t, haddressed⟩ := address_settles.1 hloaded
    refine ⟨hloaded, t, haddressed, ?_⟩
    by_contra hends
    obtain ⟨-, -, hsteady, -⟩ := address_settles (τ := Nat).2 haddressed
    have hblank := (hsteady hends).1 ' ' rfl
    cases hblank

/-- One round does not settle every address: a blank before the last slash is left at the end, the
next round takes it away, and what is left of a scheme alone is refused then. -/
theorem address_unsettled :
    build [] [("api_url", .text "https://api.test /")] = .ok (settingsAt "https://api.test ") ∧
      (settingsAt "https://api.test ").assign "api_url" (.text "https://api.test ") =
        .ok (settingsAt "https://api.test") ∧
      build [] [("api_url", .text "http:// /")] = .ok (settingsAt "http:// ") ∧
      (settingsAt "http:// ").assign "api_url" (.text "http:// ") =
        .faulty [⟨[.field "api_url"], .rejected⟩] :=
  ⟨rfl, rfl, rfl, rfl⟩

end Settings

end PlatformRoutes
