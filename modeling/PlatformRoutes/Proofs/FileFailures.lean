import PlatformRoutes.Proofs.LoadedText
import PlatformRoutes.Proofs.SettingLayers

namespace PlatformRoutes

variable {τ : Type}

/-- The failures as which whatever is wrong with the configuration is meant to be reported. -/
def Failure.isConfiguration : Failure τ → Bool
  | configuration _ | invalidSettings _ => true
  | _ => false

namespace SettingsFile

variable {e : Failure τ}

/-- Entries give nothing if one of their keys is no text. -/
theorem ofEntries_fails {entries : List (Datum × Datum)} (h : ofEntries entries = .error e) :
    e = .wrongType ∧ ∃ entry ∈ entries, ∀ name, entry.1 ≠ .text name := by
  unfold ofEntries at h
  generalize ([] : Given) = given at h
  induction entries generalizing given with
  | nil => exact nomatch h
  | cons entry rest ih =>
    obtain ⟨key, d⟩ := entry
    rw [List.foldlM_cons] at h
    cases key with
    | text name =>
      obtain ⟨he, entry, hentry, hkey⟩ := ih _ h
      exact ⟨he, entry, List.mem_cons_of_mem _ hentry, hkey⟩
    | null | flag | int | real | octets | other =>
      cases h
      exact ⟨rfl, _, List.mem_cons_self, nofun⟩

theorem ofEntries_of_key {entries : List (Datum × Datum)}
    (h : ∃ entry ∈ entries, ∀ name, entry.1 ≠ .text name) :
    ofEntries entries = (.error .wrongType : Except (Failure τ) Given) := by
  unfold ofEntries
  generalize ([] : Given) = given
  induction entries generalizing given with
  | nil => exact absurd h (by simp)
  | cons entry rest ih =>
    obtain ⟨key, d⟩ := entry
    rw [List.foldlM_cons]
    cases key with
    | text name =>
      refine ih ?_ _
      obtain ⟨entry, hentry, hkey⟩ := h
      rcases List.mem_cons.mp hentry with rfl | hrest
      · exact absurd rfl (hkey name)
      · exact ⟨entry, hrest, hkey⟩
    | null | flag | int | real | octets | other => rfl

theorem any_put (given : Given) (n : String) (d : Datum) (name : String) :
    (put given n d).any (·.1 == name) = (n == name || given.any (·.1 == name)) := by
  induction given with
  | nil => rfl
  | cons g rest ih =>
    obtain ⟨m, old⟩ := g
    unfold put
    split
    · rename_i hsame
      rw [eq_of_beq hsame, List.any_cons, List.any_cons, ← Bool.or_assoc, Bool.or_self]
    · rw [List.any_cons, List.any_cons, ih, Bool.or_left_comm]

theorem any_of_putEntries {entries : List (Datum × Datum)} {before given : Given}
    (h : (entries.foldlM putEntry before : Except (Failure τ) Given) = .ok given) (name : String) :
    given.any (·.1 == name) = true ↔
      before.any (·.1 == name) = true ∨ ∃ entry ∈ entries, entry.1 = .text name := by
  induction entries generalizing before with
  | nil =>
    cases h
    simp
  | cons entry rest ih =>
    obtain ⟨key, d⟩ := entry
    rw [List.foldlM_cons] at h
    cases key with
    | text n =>
      rw [ih h, any_put, Bool.or_eq_true, beq_iff_eq]
      simp only [List.mem_cons, exists_eq_or_imp, Datum.text.injEq]
      rw [or_assoc, or_left_comm]
    | null | flag | int | real | octets | other => cases h

/-- What entries give has the names that are keys of them. -/
theorem any_of_ofEntries {entries : List (Datum × Datum)} {given : Given}
    (h : (ofEntries entries : Except (Failure τ) Given) = .ok given) (name : String) :
    given.any (·.1 == name) = true ↔ ∃ entry ∈ entries, entry.1 = .text name := by
  rw [any_of_putEntries h]
  exact or_iff_right nofun

/-- A file that gives something holds nothing, or a mapping. -/
theorem givenBy_eq_ok {readYaml : ByteArray → Except (Raised Unit τ) Yaml.Node.Root}
    {f : SettingsFile} {given : Given} (h : f.givenBy readYaml = .ok given) :
    given = [] ∨ ∃ bytes entries, f.bytes = some bytes ∧ readYaml bytes = .ok (.mapping entries) ∧
      (ofEntries entries : Except (Failure τ) Given) = .ok given := by
  unfold givenBy at h
  dsimp only at h
  split at h
  · exact nomatch h
  · rename_i bytes hbytes
    split at h
    · exact nomatch h
    · exact nomatch h
    · cases h
      exact .inl rfl
    · rename_i entries hread
      exact .inr ⟨bytes, entries, hbytes, hread, h⟩
    · exact nomatch h

theorem givenBy_mapping {readYaml : ByteArray → Except (Raised Unit τ) Yaml.Node.Root}
    {f : SettingsFile} {bytes : ByteArray} {entries : List (Datum × Datum)}
    (hbytes : f.bytes = some bytes) (hread : readYaml bytes = .ok (.mapping entries)) :
    f.givenBy readYaml = ofEntries entries := by
  rw [givenBy, hbytes]
  dsimp only
  rw [hread]

/-- A file that gives nothing fails the configuration, unless the reader of YAML raises something that
is not its own, or a key at the root is no text. -/
theorem givenBy_fails {readYaml : ByteArray → Except (Raised Unit τ) Yaml.Node.Root}
    {f : SettingsFile} (h : f.givenBy readYaml = .error e) :
    e.isConfiguration = true ∨ ∃ bytes, f.bytes = some bytes ∧
      (readYaml bytes = .error (.other e) ∨ e = .wrongType ∧
        ∃ entries, readYaml bytes = .ok (.mapping entries) ∧
          ∃ entry ∈ entries, ∀ name, entry.1 ≠ .text name) := by
  unfold givenBy at h
  dsimp only at h
  split at h
  · cases h
    exact .inl rfl
  · rename_i bytes hbytes
    split at h
    · cases h
      exact .inl rfl
    · rename_i hread
      cases h
      exact .inr ⟨bytes, hbytes, .inl hread⟩
    · exact nomatch h
    · rename_i entries hread
      obtain ⟨rfl, hkey⟩ := ofEntries_fails h
      exact .inr ⟨bytes, hbytes, .inr ⟨rfl, entries, hread, hkey⟩⟩
    · cases h
      exact .inl rfl

end SettingsFile

namespace Settings

open Setting (Named)

variable {libraries : Libraries τ} {file : Option SettingsFile} {env : Environment}
  {given overrides before rest : Given} {s t : Settings} {e : Failure τ}

/-- Overrides lead from settings to others: a null leaves them, and all else is set. -/
inductive Overridden (libraries : Libraries τ) : Settings → Given → Settings → Prop
  | none (s : Settings) : Overridden libraries s [] s
  | null {s t : Settings} {name : String} {rest : Given} (h : Overridden libraries s rest t) :
      Overridden libraries s ((name, .null) :: rest) t
  | set {s u t : Settings} {name : String} {d : Datum} {rest : Given} (hd : d ≠ .null)
      (hset : libraries.set s name d = .ok u) (h : Overridden libraries u rest t) :
      Overridden libraries s ((name, d) :: rest) t

/-- What a library raises while settings are loaded and no one looks out for: something that is not
its own on reading the file, on making the settings, or on setting one of them after the overrides
before it. A key at the root of the file that is no text cannot even be passed on. -/
inductive Escapes (libraries : Libraries τ) (file : Option SettingsFile) (env : Environment)
    (overrides : Given) : Failure τ → Prop
  | unread {f : SettingsFile} {bytes : ByteArray} {e : Failure τ} (hfile : file = some f)
      (hbytes : f.bytes = some bytes) (hread : libraries.readYaml bytes = .error (.other e)) :
      Escapes libraries file env overrides e
  | keyed {f : SettingsFile} {bytes : ByteArray} {entries : List (Datum × Datum)}
      (hfile : file = some f) (hbytes : f.bytes = some bytes)
      (hread : libraries.readYaml bytes = .ok (.mapping entries))
      (hkey : ∃ entry ∈ entries, ∀ name, entry.1 ≠ .text name) :
      Escapes libraries file env overrides .wrongType
  | unmade {given : Given} {e : Failure τ} (hfiled : filedBy libraries file = .ok given)
      (hmake : libraries.make env given = .error (.other e)) :
      Escapes libraries file env overrides e
  | unset {given before rest : Given} {s t : Settings} {name : String} {d : Datum} {e : Failure τ}
      (hfiled : filedBy libraries file = .ok given) (hmake : libraries.make env given = .ok s)
      (hoverrides : overrides = before ++ (name, d) :: rest)
      (hbefore : Overridden libraries s before t) (hd : d ≠ .null)
      (hset : libraries.set t name d = .error (.other e)) :
      Escapes libraries file env overrides e

/-- Of what a library raises, only what is not its own goes on as it is. -/
theorem caught_fails {α β : Type} {raised : Raised (List Fault) τ} {next : α → Except (Failure τ) β}
    (h : (caught (.error raised) >>= next) = .error e) :
    e.isConfiguration = true ∨ raised = .other e := by
  cases raised with
  | own faults =>
    cases h
    exact .inl rfl
  | other f =>
    cases h
    exact .inr rfl

theorem overrideBy_of_ne {d : Datum} (hd : d ≠ .null) (s : Settings) (name : String) :
    overrideBy libraries s (name, d) = libraries.set s name d := by
  cases d with
  | null => exact absurd rfl hd
  | flag | int | real | text | octets | other => rfl

/-- The overrides that are set so far are set again before the next one. -/
theorem Overridden.foldlM (h : Overridden libraries s before t) (rest : Given) :
    (before ++ rest).foldlM (fun s o => caught (overrideBy libraries s o)) s =
      rest.foldlM (fun s o => caught (overrideBy libraries s o)) t := by
  induction h with
  | none => rfl
  | null _ ih => exact ih
  | set hd hset _ ih =>
    rw [List.cons_append, List.foldlM_cons, overrideBy_of_ne hd, hset]
    exact ih

theorem overrides_fail
    (h : overrides.foldlM (fun s o => caught (overrideBy libraries s o)) s = .error e) :
    e.isConfiguration = true ∨ ∃ before t name d rest, overrides = before ++ (name, d) :: rest ∧
      Overridden libraries s before t ∧ d ≠ .null ∧
      libraries.set t name d = .error (.other e) := by
  induction overrides generalizing s with
  | nil => exact nomatch h
  | cons o rest ih =>
    obtain ⟨name, d⟩ := o
    rw [List.foldlM_cons] at h
    by_cases hd : d = .null
    · subst hd
      refine (ih h).imp_right ?_
      rintro ⟨before, t, name', d', rest', rfl, hbefore, hrefused⟩
      exact ⟨(name, .null) :: before, t, name', d', rest', rfl, .null hbefore, hrefused⟩
    · rw [overrideBy_of_ne hd] at h
      cases hset : libraries.set s name d with
      | error raised =>
        rw [hset] at h
        refine (caught_fails h).imp_right ?_
        rintro rfl
        exact ⟨[], s, name, d, rest, rfl, .none s, hd, hset⟩
      | ok u =>
        rw [hset] at h
        refine (ih h).imp_right ?_
        rintro ⟨before, t, name', d', rest', rfl, hbefore, hrefused⟩
        exact ⟨(name, d) :: before, t, name', d', rest', rfl, .set hd hset hbefore, hrefused⟩

theorem loadBy_of_filed (h : filedBy libraries file = .ok given) :
    loadBy libraries file env overrides = layerBy libraries given env overrides := by
  rw [loadBy, h]
  rfl

theorem layerBy_of_made (h : libraries.make env given = .ok s) :
    layerBy libraries given env overrides =
      overrides.foldlM (fun s o => caught (overrideBy libraries s o)) s := by
  rw [layerBy, h]
  rfl

/-- What is not looked out for ends the loading. -/
theorem Escapes.loadBy_eq (h : Escapes libraries file env overrides e) :
    loadBy libraries file env overrides = .error e := by
  cases h with
  | unread hfile hbytes hread =>
    subst hfile
    rw [loadBy, filedBy, SettingsFile.givenBy, hbytes]
    dsimp only
    rw [hread]
    rfl
  | keyed hfile hbytes hread hkey =>
    subst hfile
    rw [loadBy, filedBy, SettingsFile.givenBy_mapping hbytes hread,
      SettingsFile.ofEntries_of_key hkey]
    rfl
  | unmade hfiled hmake =>
    rw [loadBy_of_filed hfiled, layerBy, hmake]
    rfl
  | unset hfiled hmake hoverrides hbefore hd hset =>
    rw [loadBy_of_filed hfiled, layerBy_of_made hmake, hoverrides, hbefore.foldlM,
      List.foldlM_cons, overrideBy_of_ne hd, hset]
    rfl

/-- Loading fails the configuration, unless something escapes. -/
theorem loadBy_fails (h : loadBy libraries file env overrides = .error e) :
    e.isConfiguration = true ∨ Escapes libraries file env overrides e := by
  cases hfiled : filedBy libraries file with
  | error e' =>
    rw [loadBy, hfiled] at h
    cases h
    cases file with
    | none => cases hfiled
    | some f =>
      refine (SettingsFile.givenBy_fails hfiled).imp_right ?_
      rintro ⟨bytes, hbytes, hread | ⟨rfl, entries, hread, hkey⟩⟩
      · exact .unread rfl hbytes hread
      · exact .keyed rfl hbytes hread hkey
  | ok given =>
    rw [loadBy_of_filed hfiled] at h
    cases hmake : libraries.make env given with
    | error raised =>
      rw [layerBy, hmake] at h
      refine (caught_fails h).imp_right ?_
      rintro rfl
      exact .unmade hfiled hmake
    | ok s =>
      rw [layerBy_of_made hmake] at h
      refine (overrides_fail h).imp_right ?_
      rintro ⟨before, t, name, d, rest, hoverrides, hbefore, hd, hset⟩
      exact .unset hfiled hmake hoverrides hbefore hd hset

theorem readYaml_standard {bytes : ByteArray} :
    (Libraries.standard : Libraries τ).readYaml bytes = .error (.other e) ↔
      ∃ fault, Yaml.load bytes = .error fault ∧ fault.raised = .other e := by
  rw [Libraries.standard]
  dsimp only
  cases hread : Yaml.load bytes with
  | ok root => exact ⟨nofun, nofun⟩
  | error fault =>
    constructor
    · intro h
      exact ⟨fault, rfl, Except.error.inj h⟩
    · rintro ⟨_, ⟨⟩, hraised⟩
      exact congrArg Except.error hraised

theorem readYaml_standard_ok {bytes : ByteArray} {root : Yaml.Node.Root} :
    (Libraries.standard : Libraries τ).readYaml bytes = .ok root ↔ Yaml.load bytes = .ok root := by
  rw [Libraries.standard]
  dsimp only
  cases Yaml.load bytes with
  | ok found => exact ⟨fun h => congrArg Except.ok (Except.ok.inj h), fun h => h ▸ rfl⟩
  | error fault => exact ⟨nofun, nofun⟩

theorem report_ne_other {α : Type} {x : Checked α} (h : x ≠ .misshapen) (f : Failure τ) :
    x.report ≠ .error (.other f) := by
  cases x with
  | ok a => exact nofun
  | faulty faults => exact nofun
  | misshapen => exact absurd rfl h

theorem assign_ne_misshapen (s : Settings) (name : String) (d : Datum) :
    s.assign name d ≠ .misshapen := by
  unfold assign
  split
  · split <;> exact nofun
  · rename_i k _
    apply Checked.map_ne_misshapen
    apply Checked.under_ne_misshapen
    obtain ⟨v, h⟩ | ⟨faults, h⟩ := k.check_cases d <;> rw [h] <;> exact nofun

theorem filed_of_any {name : String} (h : filedBy (.standard : Libraries τ) file = .ok given)
    (hname : given.any (·.1 == name) = true) : ∃ f bytes entries, file = some f ∧
      f.bytes = some bytes ∧ Yaml.load bytes = .ok (.mapping entries) ∧
      (SettingsFile.ofEntries entries : Except (Failure τ) Given) = .ok given := by
  cases file with
  | none =>
    cases h
    cases hname
  | some f =>
    rcases SettingsFile.givenBy_eq_ok h with rfl | ⟨bytes, entries, hbytes, hread, hentries⟩
    · cases hname
    · exact ⟨f, bytes, entries, rfl, hbytes, readYaml_standard_ok.mp hread, hentries⟩

/-- With the standard libraries only a file can have something escape: its contents raise what the
reader of YAML does not foresee, or a key at its root is no text or names the settings themselves. -/
theorem load_fails_iff (file : Option SettingsFile) (env : Environment) (overrides : Given)
    (e : Failure τ) :
    load file env overrides = .error e ∧ e.isConfiguration = false ↔
      ∃ f bytes, file = some f ∧ f.bytes = some bytes ∧
        ((∃ fault, Yaml.load bytes = .error fault ∧ fault.raised = .other e) ∨
          e = .wrongType ∧ ∃ entries, Yaml.load bytes = .ok (.mapping entries) ∧
            ∃ entry ∈ entries, (∀ name, entry.1 ≠ .text name) ∨ entry.1 = .text ownName) := by
  constructor
  · rintro ⟨h, he⟩
    cases (loadBy_fails h).resolve_left (by rw [he]; exact nofun) with
    | unread hfile hbytes hread =>
      exact ⟨_, _, hfile, hbytes, .inl (readYaml_standard.mp hread)⟩
    | keyed hfile hbytes hread hkey =>
      obtain ⟨entry, hentry, hkey⟩ := hkey
      exact ⟨_, _, hfile, hbytes,
        .inr ⟨rfl, _, readYaml_standard_ok.mp hread, entry, hentry, .inl hkey⟩⟩
    | unmade hfiled hmake =>
      unfold Libraries.standard at hmake
      dsimp only at hmake
      split at hmake
      · rename_i hname
        cases hmake
        obtain ⟨f, bytes, entries, rfl, hbytes, hread, hentries⟩ := filed_of_any hfiled hname
        obtain ⟨entry, hentry, hkey⟩ := (SettingsFile.any_of_ofEntries hentries _).mp hname
        exact ⟨f, bytes, rfl, hbytes, .inr ⟨rfl, entries, hread, entry, hentry, .inr hkey⟩⟩
      · exact absurd hmake (report_ne_other (ofSource_ne_misshapen _ _) _)
    | unset _ _ _ _ _ hset => exact absurd hset (report_ne_other (assign_ne_misshapen _ _ _) _)
  · rintro ⟨f, bytes, rfl, hbytes, ⟨fault, hread, hraised⟩ | ⟨rfl, entries, hread, entry, hentry, hkey⟩⟩
    · have hescapes : Escapes .standard (some f) env overrides e :=
        .unread rfl hbytes (readYaml_standard.mpr ⟨fault, hread, hraised⟩)
      refine ⟨hescapes.loadBy_eq, ?_⟩
      cases fault <;> cases hraised <;> rfl
    · have hroot := (readYaml_standard_ok (τ := τ)).mpr hread
      refine ⟨Escapes.loadBy_eq ?_, rfl⟩
      cases hentries : (SettingsFile.ofEntries entries : Except (Failure τ) Given) with
      | error e =>
        obtain ⟨rfl, hother⟩ := SettingsFile.ofEntries_fails hentries
        exact .keyed rfl hbytes hroot hother
      | ok given =>
        -- All keys are texts, so the one that was found names the settings.
        have hname : entry.1 = .text ownName := hkey.resolve_left fun hother => by
          rw [SettingsFile.ofEntries_of_key ⟨entry, hentry, hother⟩] at hentries
          cases hentries
        have hfiled : filedBy (.standard : Libraries τ) (some f) = .ok given :=
          (SettingsFile.givenBy_mapping hbytes hroot).trans hentries
        exact .unmade hfiled
          (if_pos ((SettingsFile.any_of_ofEntries hentries _).mpr ⟨entry, hentry, hname⟩))

end Settings

end PlatformRoutes
