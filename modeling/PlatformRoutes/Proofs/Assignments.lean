import PlatformRoutes.Proofs.Segment
import PlatformRoutes.Proofs.SettingLayers

namespace PlatformRoutes

namespace Checked

theorem atLeast_le {bound n m : Int} (h : atLeast bound n = .ok m) : bound ≤ m := by
  unfold atLeast at h
  split at h
  · cases h
  · cases h
    omega

theorem atMost_eq_ok {bound n m : Int} (h : atMost bound n = .ok m) : m = n ∧ m ≤ bound := by
  unfold atMost at h
  split at h
  · cases h
  · cases h
    omega

end Checked

namespace Setting

/-- What is sure about a value that was checked for a setting, or that the setting has initially:
an address on the web without a slash at its end, a name that is not empty and has no blanks around
it, a size of pages that the platform grants. -/
def Admits : (k : Setting) → k.Value → Prop
  | apiUrl, url =>
    ("http://".toList <+: url.toList ∨ "https://".toList <+: url.toList) ∧
      url.toList.getLast? ≠ some '/'
  | organization, name | space, name =>
    ∀ s, name = some s → s ≠ "" ∧ Text.Trimmed Text.isBlank s.toList
  | pageSize, n => 1 ≤ n ∧ n ≤ 100
  | token, _ | pollInterval, _ | pollTimeout, _ | requestTimeout, _ | verifySsl, _ => True

theorem isWebAddress_iff {s : String} :
    isWebAddress s = true ↔ "http://".toList <+: s.toList ∨ "https://".toList <+: s.toList := by
  rw [isWebAddress, Bool.or_eq_true, List.isPrefixOf_iff_prefix, List.isPrefixOf_iff_prefix]

/-- The slashes go before the scheme is looked at, so what is left of it alone is refused. -/
theorem admits_address {s url : String} (h : address s = .ok url) : Admits apiUrl url := by
  unfold address at h
  dsimp only at h
  split at h
  · rename_i hweb
    rw [← Checked.ok.inj h]
    refine ⟨isWebAddress_iff.mp hweb, fun hlast => ?_⟩
    rw [Text.stripRight, String.toList_ofList] at hlast
    have hslash := Text.getLast?_trimRight hlast
    exact beq_eq_false_iff_ne.mp hslash rfl
  · cases h

theorem admits_nameOrNone {given : Option String} {s : String} (h : nameOrNone given = some s) :
    s ≠ "" ∧ Text.Trimmed Text.isBlank s.toList := by
  obtain ⟨hstripped, hne⟩ := Option.filter_eq_some_iff.mp h
  obtain ⟨t, -, rfl⟩ := Option.map_eq_some_iff.mp hstripped
  refine ⟨fun hempty => ?_, ?_⟩
  · rw [hempty] at hne
    cases hne
  · rw [Text.strip, String.toList_ofList]
    exact Text.trimmed_trim _ _

theorem admits_of_check {k : Setting} {d : Datum} {v : k.Value} (h : k.check d = .ok v) :
    k.Admits v := by
  cases k with
  | apiUrl =>
    obtain ⟨s, -, hurl⟩ := Checked.andThen_eq_ok h
    exact admits_address hurl
  | organization | space =>
    obtain ⟨given, -, rfl⟩ := Checked.map_eq_ok h
    exact fun s hs => admits_nameOrNone hs
  | pageSize =>
    obtain ⟨n, hleast, hmost⟩ := Checked.andThen_eq_ok h
    obtain ⟨m, -, hleast⟩ := Checked.andThen_eq_ok hleast
    obtain ⟨rfl, hle⟩ := Checked.atMost_eq_ok hmost
    exact ⟨Checked.atLeast_le hleast, hle⟩
  | token | pollInterval | pollTimeout | requestTimeout | verifySsl => exact trivial

theorem admits_initial (k : Setting) : k.Admits k.initial := by
  cases k with
  | apiUrl => exact ⟨by decide, by decide⟩
  | organization | space =>
    intro s hs
    cases hs
  | pageSize => exact ⟨by decide, by decide⟩
  | token | pollInterval | pollTimeout | requestTimeout | verifySsl => exact trivial

end Setting

namespace Settings

/-- Every setting has a value that is admitted for it. -/
def Valid (s : Settings) : Prop := ∀ k : Setting, k.Admits (s.get k)

variable {env : Environment} {given : Given} {s : Settings}

theorem becomes_of_ofSource {source : Setting → Option Datum} {unknown : List String}
    (h : ofSource source unknown = .ok s) (k : Setting) :
    k.Becomes (source k) k.initial (s.get k) := by
  have hknown : ofSource source [] = .ok s := by
    cases unknown with
    | nil => exact h
    | cons name rest =>
      obtain ⟨_, _, -, hunknown, -⟩ := Checked.seq_eq_ok h
      cases hunknown
  exact Setting.read_eq_ok.mp (ofSource_eq_ok.mp hknown k)

theorem valid_ofSource {source : Setting → Option Datum} {unknown : List String}
    (h : ofSource source unknown = .ok s) : s.Valid := by
  intro k
  have hread := becomes_of_ofSource h k
  cases hsource : source k with
  | none =>
    rw [hsource] at hread
    rw [show s.get k = k.initial from hread]
    exact k.admits_initial
  | some d =>
    rw [hsource] at hread
    exact Setting.admits_of_check hread

/-- What an assignment can do: it is refused, or it is taken and gives its own setting the normal
form of its value. A mark is nobody's own setting. -/
inductive Assigned (s : Settings) (name : String) (d : Datum) : Checked Settings → Prop
  | refused (faults : List Fault) : Assigned s name d (.faulty faults)
  | taken (t : Settings) (hself : ∀ k : Setting, k.name = name → k.check d = .ok (t.get k))
    (hother : ∀ k : Setting, k.name ≠ name → t.get k = s.get k) : Assigned s name d (.ok t)

theorem assigned (s : Settings) (name : String) (d : Datum) :
    Assigned s name d (s.assign name d) := by
  cases hname : Setting.ofName? name with
  | none =>
    have hnobody (k : Setting) : k.name ≠ name := by
      rintro rfl
      rw [k.ofName?_name] at hname
      cases hname
    rw [assign, hname]
    dsimp only
    split
    · exact .taken s (fun k hk => absurd hk (hnobody k)) fun _ _ => rfl
    · exact .refused _
  | some k =>
    obtain rfl : k.name = name := by
      rw [Setting.ofName?] at hname
      exact eq_of_beq (List.find?_some (p := fun k : Setting => k.name == name) hname)
    rw [assign_name]
    obtain ⟨v, hv⟩ | ⟨faults, hfaults⟩ := k.check_cases d
    · rw [hv]
      refine .taken (s.put k v) (fun l hl => ?_) fun l hl => ?_
      · obtain rfl := Setting.name_injective hl
        rw [get_put_self]
        exact hv
      · exact get_put_other s (fun hlk => hl (congrArg _ hlk)) v
    · rw [hfaults]
      exact .refused _

/-- What an attempt at an assignment leaves. One that is refused leaves what was there. -/
def tried (s : Settings) (attempt : String × Datum) : Settings :=
  match s.assign attempt.1 attempt.2 with
  | .ok t => t
  | _ => s

/-- What a sequence of attempts leaves. -/
def triedAll (s : Settings) (attempts : Given) : Settings := attempts.foldl tried s

theorem triedAll_concat (s : Settings) (before : Given) (attempt : String × Datum) :
    s.triedAll (before ++ [attempt]) = (s.triedAll before).tried attempt := by
  rw [triedAll, List.foldl_append]
  rfl

theorem tried_of_faulty {name : String} {d : Datum} {faults : List Fault}
    (h : s.assign name d = .faulty faults) : s.tried (name, d) = s := by
  rw [tried, h]

theorem tried_of_ok {t : Settings} {name : String} {d : Datum} (h : s.assign name d = .ok t) :
    s.tried (name, d) = t := by
  rw [tried, h]

theorem Valid.of_assigned {t : Settings} {name : String} {d : Datum} (h : s.Valid)
    (hself : ∀ k : Setting, k.name = name → k.check d = .ok (t.get k))
    (hother : ∀ k : Setting, k.name ≠ name → t.get k = s.get k) : t.Valid := by
  intro k
  by_cases hname : k.name = name
  · exact Setting.admits_of_check (hself k hname)
  · rw [hother k hname]
    exact h k

theorem Valid.tried (h : s.Valid) (attempt : String × Datum) : (s.tried attempt).Valid := by
  have hassigned := s.assigned attempt.1 attempt.2
  unfold Settings.tried
  generalize s.assign attempt.1 attempt.2 = result at hassigned ⊢
  cases hassigned with
  | refused faults => exact h
  | taken t hself hother => exact h.of_assigned hself hother

theorem Valid.triedAll (h : s.Valid) (attempts : Given) : (s.triedAll attempts).Valid := by
  induction attempts generalizing s with
  | nil => exact h
  | cons attempt rest ih => exact ih (h.tried attempt)

/-- Settings that were built stay valid under all attempts to assign to them, and each attempt,
after whatever others, either is refused and leaves every setting as it was, or is taken and
touches the setting of its name alone. -/
theorem valid_throughout (h : build env given = .ok s) (before : Given) (name : String)
    (d : Datum) :
    (s.triedAll before).Valid ∧
      ((∃ faults, (s.triedAll before).assign name d = .faulty faults ∧
          s.triedAll (before ++ [(name, d)]) = s.triedAll before) ∨
        ∃ t, (s.triedAll before).assign name d = .ok t ∧
          s.triedAll (before ++ [(name, d)]) = t ∧
          (∀ k : Setting, k.name = name → k.check d = .ok (t.get k)) ∧
          ∀ k : Setting, k.name ≠ name → t.get k = (s.triedAll before).get k) := by
  refine ⟨(valid_ofSource h).triedAll before, ?_⟩
  rw [triedAll_concat]
  have hassigned := (s.triedAll before).assigned name d
  cases hresult : (s.triedAll before).assign name d with
  | ok t =>
    rw [hresult] at hassigned
    cases hassigned with
    | taken _ hself hother => exact .inr ⟨t, rfl, tried_of_ok hresult, hself, hother⟩
  | faulty faults => exact .inl ⟨faults, rfl, tried_of_faulty hresult⟩
  | misshapen =>
    rw [hresult] at hassigned
    cases hassigned

def roamingEnvironment : Environment := [("CF_OPERATIONS_API_URL", " https://ops.example// ")]

def roamingGiven : Given := [("PAGE_SIZE", .text "20"), ("space", .text "dev")]

/-- A size of pages that is too large, a name with blanks around it, a setting that there is not,
and a scheme alone, which loses its slashes. -/
def roamingAttempts : Given :=
  [("page_size", .int 101), ("organization", .text " acme\t"), ("quota", .int 1),
    ("api_url", .text "http://")]

def roamingSettings : Settings :=
  ⟨"https://ops.example", "", none, some "dev", 20, 1, 300, 30, true⟩

theorem valid_throughout_roaming :
    build roamingEnvironment roamingGiven = .ok roamingSettings ∧
      (roamingSettings.triedAll roamingAttempts).Valid ∧
      (roamingSettings.triedAll roamingAttempts).organization = some "acme" ∧
      (roamingSettings.triedAll (roamingAttempts ++ [("space", .text " ")])).space = none ∧
      ∀ k : Setting, k ≠ .organization → k ≠ .space →
        (roamingSettings.triedAll (roamingAttempts ++ [("space", .text " ")])).get k =
          roamingSettings.get k := by
  have hbuilt : build roamingEnvironment roamingGiven = .ok roamingSettings := rfl
  obtain ⟨hvalid, ⟨faults, hfaults, -⟩ | ⟨t, -, ht, hself, hother⟩⟩ :=
    valid_throughout hbuilt roamingAttempts "space" (.text " ")
  · cases hfaults
  · refine ⟨hbuilt, hvalid, rfl, ?_, fun k horganization hspace => ?_⟩
    · rw [ht]
      exact (Checked.ok.inj (hself .space rfl)).symm
    · rw [ht, hother k fun hname => hspace (Setting.name_injective hname)]
      cases k <;> first | rfl | exact absurd rfl horganization

end Settings

end PlatformRoutes
