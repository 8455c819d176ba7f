import Mathlib.Data.List.Find
import PlatformRoutes.Proofs.PageReading
import PlatformRoutes.Settings.File

namespace PlatformRoutes

namespace Checked

variable {α β : Type} {x : Checked α}

theorem map_ne_misshapen {f : α → β} (h : x ≠ .misshapen) : x.map f ≠ .misshapen := by
  cases x with
  | ok a => exact nofun
  | faulty faults => exact nofun
  | misshapen => exact absurd rfl h

theorem apply_ne_misshapen {f : Checked (α → β)} (hf : f ≠ .misshapen) (h : x ≠ .misshapen) :
    f <*> x ≠ .misshapen := by
  cases f with
  | misshapen => exact absurd rfl hf
  | ok g | faulty faults =>
    cases x with
    | misshapen => exact absurd rfl h
    | ok a | faulty faults => exact nofun

theorem andThen_ne_misshapen {f : α → Checked β} (h : x ≠ .misshapen)
    (hf : ∀ a, f a ≠ .misshapen) : x.andThen f ≠ .misshapen := by
  cases x with
  | ok a => exact hf a
  | faulty faults => exact nofun
  | misshapen => exact absurd rfl h

theorem under_ne_misshapen {place : Place} (h : x ≠ .misshapen) : x.under place ≠ .misshapen := by
  cases x with
  | ok a => exact nofun
  | faulty faults => exact nofun
  | misshapen => exact absurd rfl h

end Checked

namespace Datum

theorem asText_ne_misshapen (d : Datum) : d.asText ≠ .misshapen := by
  cases d with
  | octets bytes =>
    rw [asText]
    split <;> exact nofun
  | _ => exact nofun

theorem wholeNumber_ne_misshapen (x : Float) : wholeNumber x ≠ .misshapen := by
  unfold wholeNumber
  split
  · split
    · exact nofun
    · split <;> exact nofun
  · exact nofun

theorem asInt_ne_misshapen (d : Datum) : d.asInt ≠ .misshapen := by
  unfold asInt
  split
  · exact nofun
  · exact nofun
  · exact wholeNumber_ne_misshapen _
  · split
    · exact nofun
    · split <;> exact nofun

theorem asFloat_ne_misshapen (d : Datum) : d.asFloat ≠ .misshapen := by
  unfold asFloat
  split
  · exact nofun
  · dsimp only
    split <;> exact nofun
  · exact nofun
  · split
    · exact nofun
    · split <;> exact nofun

theorem flagOfInt_ne_misshapen (n : Int) : flagOfInt n ≠ .misshapen := by
  unfold flagOfInt
  split
  · exact nofun
  · split <;> exact nofun

theorem asFlag_ne_misshapen (d : Datum) : d.asFlag ≠ .misshapen := by
  unfold asFlag
  split
  · exact nofun
  · exact flagOfInt_ne_misshapen _
  · split
    · exact flagOfInt_ne_misshapen _
    · exact nofun
  · split
    · exact nofun
    · dsimp only
      split
      · exact nofun
      · split <;> exact nofun

theorem orNull_ne_misshapen {α : Type} {read : Datum → Checked α} (h : ∀ d, read d ≠ .misshapen)
    (d : Datum) : orNull read d ≠ .misshapen := by
  unfold orNull
  split
  · exact nofun
  · exact Checked.map_ne_misshapen (h d)

end Datum

namespace Setting

theorem ofName?_name (k : Setting) : ofName? k.name = some k := by
  cases k <;> decide

theorem name_injective : Function.Injective name := by
  intro k l h
  have hk := ofName?_name k
  rw [h, ofName?_name l] at hk
  exact (Option.some.inj hk).symm

/-- Every value for a setting is either taken or refused with its faults. -/
theorem check_cases (k : Setting) (d : Datum) :
    (∃ v, k.check d = .ok v) ∨ ∃ faults, k.check d = .faulty faults := by
  have hread : k.check d ≠ .misshapen := by
    cases k with
    | apiUrl =>
      refine Checked.andThen_ne_misshapen d.asText_ne_misshapen fun s => ?_
      unfold address
      dsimp only
      split <;> exact nofun
    | token => exact d.asText_ne_misshapen
    | organization | space =>
      exact Checked.map_ne_misshapen (Datum.orNull_ne_misshapen Datum.asText_ne_misshapen d)
    | pageSize =>
      refine Checked.andThen_ne_misshapen
        (Checked.andThen_ne_misshapen d.asInt_ne_misshapen fun n => ?_) fun n => ?_
      · unfold Checked.atLeast
        split <;> exact nofun
      · unfold Checked.atMost
        split <;> exact nofun
    | pollInterval | pollTimeout | requestTimeout =>
      refine Checked.andThen_ne_misshapen d.asFloat_ne_misshapen fun x => ?_
      unfold Checked.positive
      split <;> exact nofun
    | verifySsl => exact d.asFlag_ne_misshapen
  cases h : k.check d with
  | ok v => exact .inl ⟨v, rfl⟩
  | faulty faults => exact .inr ⟨faults, rfl⟩
  | misshapen => exact absurd h hread

end Setting

namespace Settings

theorem get_put_self (s : Settings) (k : Setting) (v : k.Value) : (s.put k v).get k = v := by
  cases k <;> rfl

theorem get_put_other (s : Settings) {k l : Setting} (h : l ≠ k) (v : k.Value) :
    (s.put k v).get l = s.get l := by
  cases k <;> cases l <;> first | rfl | exact absurd rfl h

/-- The settings that have some given values. -/
def ofValues (v : (k : Setting) → k.Value) : Settings :=
  ⟨v .apiUrl, v .token, v .organization, v .space, v .pageSize, v .pollInterval, v .pollTimeout,
    v .requestTimeout, v .verifySsl⟩

theorem get_ofValues (v : (k : Setting) → k.Value) (k : Setting) : (ofValues v).get k = v k := by
  cases k <;> rfl

end Settings

namespace Setting

/-- What the environment sets for a setting, or else the file. -/
def inSources (env : Environment) (file : Given) (k : Setting) : Option Datum :=
  match k.inEnvironment env with
  | some text => some (.text text)
  | none => (file.find? fun g => g.1 == k.name).map (·.2)

/-- A value, unless it is null. -/
def notNull? : Datum → Option Datum
  | .null => none
  | d => some d

/-- What an override sets a setting to. One that is null sets nothing. -/
def inOverrides (overrides : Given) (k : Setting) : Option Datum :=
  (overrides.find? fun o => o.1 == k.name).bind fun o => notNull? o.2

/-- All values are given under names of settings. -/
def Named (given : Given) : Prop := ∀ g ∈ given, ∃ k : Setting, g.1 = k.name

theorem Named.nil : Named [] := nofun

theorem Named.cons {given : Given} (h : Named given) (k : Setting) (d : Datum) :
    Named ((k.name, d) :: given) := List.forall_mem_cons.mpr ⟨⟨k, rfl⟩, h⟩

theorem lower_name (k : Setting) : Text.lower k.name = k.name := by
  cases k <;> decide

/-- Where only names of settings are given, no other spelling of one is. -/
theorem layered_eq_inSources {file : Given} (h : Named file) (env : Environment) (k : Setting) :
    layered env file k = k.inSources env file := by
  unfold layered inSources
  cases k.inEnvironment env with
  | some text => rfl
  | none =>
    have hspelled : (file.find? fun g => k.isSpelling g.1) = file.find? fun g => g.1 == k.name := by
      refine List.find?_congr fun g hg => ?_
      obtain ⟨l, hl⟩ := h g hg
      rw [isSpelling, hl, lower_name]
    rw [Option.map_none, Option.none_or, inGiven, hspelled, Option.or_self]

theorem inOverrides_cons (k l : Setting) (d : Datum) (rest : Given) :
    l.inOverrides ((k.name, d) :: rest) = if l = k then notNull? d else l.inOverrides rest := by
  unfold inOverrides
  rw [List.find?_cons]
  by_cases h : l = k
  · simp [h]
  · have hname : (k.name == l.name) = false :=
      beq_false_of_ne fun hname => h (name_injective hname).symm
    simp only [hname, if_neg h]

theorem inOverrides_eq_none {overrides : Given} {k : Setting}
    (h : k.name ∉ overrides.map (·.1)) : k.inOverrides overrides = none := by
  have hnone : (overrides.find? fun o => o.1 == k.name) = none := by
    rw [List.find?_eq_none]
    intro o ho hname
    exact h (eq_of_beq hname ▸ List.mem_map_of_mem ho)
  rw [inOverrides, hnone, Option.bind_none]

/-- What is given for a setting passes its check. -/
def Takes (k : Setting) (given : Option Datum) : Prop :=
  ∀ d, given = some d → ∃ v, k.check d = .ok v

/-- The value that comes of what is given for a setting: its normal form, or else a default. -/
def Becomes (k : Setting) (given : Option Datum) (default v : k.Value) : Prop :=
  match given with
  | some d => k.check d = .ok v
  | none => v = default

variable {k : Setting} {given : Option Datum} {v default : k.Value}

theorem Becomes.takes (h : k.Becomes given default v) : k.Takes given := by
  rintro d rfl
  exact ⟨v, h⟩

theorem Becomes.trans {upper : Option Datum} {w : k.Value} (h : k.Becomes given default v)
    (hupper : k.Becomes upper v w) : k.Becomes (upper.or given) default w := by
  cases upper with
  | none =>
    cases hupper
    exact h
  | some d => exact hupper

theorem read_eq_ok {given : Setting → Option Datum} :
    read given k = .ok v ↔ k.Becomes (given k) k.initial v := by
  unfold read Becomes
  cases given k with
  | none => exact ⟨fun h => (Checked.ok.inj h).symm, fun h => h ▸ rfl⟩
  | some d =>
    refine ⟨Checked.under_eq_ok, fun h => ?_⟩
    dsimp only at h ⊢
    rw [h]
    rfl

end Setting

namespace Settings

variable {τ : Type}

open Setting (Named)

/-- Building settings reads each of them by itself. -/
theorem ofSource_eq_ok {given : Setting → Option Datum} {s : Settings} :
    ofSource given [] = .ok s ↔ ∀ k, Setting.read given k = .ok (s.get k) := by
  constructor
  · intro h
    obtain ⟨_, _, hverify, -, rfl⟩ := Checked.seq_eq_ok h
    obtain ⟨_, _, hrequest, h₉, rfl⟩ := Checked.seq_eq_ok hverify
    obtain ⟨_, _, htimeout, h₈, rfl⟩ := Checked.seq_eq_ok hrequest
    obtain ⟨_, _, hinterval, h₇, rfl⟩ := Checked.seq_eq_ok htimeout
    obtain ⟨_, _, hpage, h₆, rfl⟩ := Checked.seq_eq_ok hinterval
    obtain ⟨_, _, hspace, h₅, rfl⟩ := Checked.seq_eq_ok hpage
    obtain ⟨_, _, horganization, h₄, rfl⟩ := Checked.seq_eq_ok hspace
    obtain ⟨_, _, htoken, h₃, rfl⟩ := Checked.seq_eq_ok horganization
    obtain ⟨_, _, haddress, h₂, rfl⟩ := Checked.seq_eq_ok htoken
    obtain ⟨_, h₁, rfl⟩ := Checked.map_eq_ok haddress
    intro k
    cases k <;> assumption
  · intro h
    rw [ofSource, h .apiUrl, h .token, h .organization, h .space, h .pageSize, h .pollInterval,
      h .pollTimeout, h .requestTimeout, h .verifySsl]
    rfl

theorem read_ne_misshapen (given : Setting → Option Datum) (k : Setting) :
    Setting.read given k ≠ .misshapen := by
  unfold Setting.read
  split
  · exact nofun
  · rename_i d _
    apply Checked.under_ne_misshapen
    obtain ⟨v, h⟩ | ⟨faults, h⟩ := k.check_cases d <;> rw [h] <;> exact nofun

theorem ofSource_ne_misshapen (given : Setting → Option Datum) (unknown : List String) :
    ofSource given unknown ≠ .misshapen := by
  have hread := read_ne_misshapen given
  have happly {α β : Type} {f : Checked (α → β)} {x : Checked α} :=
    Checked.apply_ne_misshapen (f := f) (x := x)
  unfold ofSource
  refine happly (happly (happly (happly (happly (happly (happly (happly (happly
    (Checked.map_ne_misshapen (hread .apiUrl)) (hread _)) (hread _)) (hread _)) (hread _))
    (hread _)) (hread _)) (hread _)) (hread _)) ?_
  cases unknown <;> exact nofun

/-- Names of settings alone leave no name unknown. -/
theorem unknownNames_eq_nil {given : Given} (h : Named given) : unknownNames given = [] := by
  unfold unknownNames
  rw [List.map_eq_nil_iff, List.filter_eq_nil_iff]
  intro g hg
  obtain ⟨k, hk⟩ := h g hg
  have hspelled : Setting.all.any (fun k => k.isSpelling g.1) = true := by
    rw [List.any_eq_true]
    refine ⟨k, by cases k <;> decide, ?_⟩
    rw [Setting.isSpelling, hk, Setting.lower_name, beq_self_eq_true]
  simp [hspelled]

/-- No setting bears the name of the settings themselves. -/
theorem any_ownName_of_named {given : Given} (h : Named given) :
    given.any (·.1 == ownName) = false := by
  rw [List.any_eq_false]
  intro g hg
  obtain ⟨k, hk⟩ := h g hg
  rw [hk]
  cases k <;> decide

theorem build_eq {given : Given} (h : Named given) (env : Environment) :
    build env given = ofSource (fun k => k.inSources env given) [] := by
  rw [build, unknownNames_eq_nil h]
  congr
  funext k
  exact Setting.layered_eq_inSources h env k

/-- Settings are built where every source that counts is taken, and nowhere else. -/
theorem build_cases {given : Given} (h : Named given) (env : Environment) :
    (∃ s, build env given = .ok s ∧
      ∀ k : Setting, k.Becomes (k.inSources env given) k.initial (s.get k)) ∨
    (∃ faults, build env given = .faulty faults) ∧
      ¬ ∀ k : Setting, k.Takes (k.inSources env given) := by
  rw [build_eq h]
  cases hbuilt : ofSource (fun k => k.inSources env given) [] with
  | ok s => exact .inl ⟨s, rfl, fun k => Setting.read_eq_ok.mp (ofSource_eq_ok.mp hbuilt k)⟩
  | faulty faults =>
    refine .inr ⟨⟨faults, rfl⟩, fun htaken => ?_⟩
    have hbecomes (k : Setting) : ∃ v, k.Becomes (k.inSources env given) k.initial v := by
      cases hk : k.inSources env given with
      | none => exact ⟨k.initial, rfl⟩
      | some d => exact htaken k d hk
    choose v hv using hbecomes
    have hread (k : Setting) :
        Setting.read (fun k => k.inSources env given) k = .ok ((ofValues v).get k) := by
      rw [get_ofValues, Setting.read_eq_ok]
      exact hv k
    rw [ofSource_eq_ok.mpr hread] at hbuilt
    exact nomatch hbuilt
  | misshapen => exact absurd hbuilt (ofSource_ne_misshapen _ _)

theorem assign_name (s : Settings) (k : Setting) (d : Datum) :
    s.assign k.name d = ((k.check d).under (.field k.name)).map (s.put k) := by
  rw [assign, Setting.ofName?_name]

/-- A null overrides nothing, and all else is set. -/
def override (s : Settings) (name : String) : Datum → Checked Settings
  | .null => .ok s
  | d => s.assign name d

/-- What comes of a check where settings are loaded. -/
def accepted {α : Type} (x : Checked α) : Except (Failure τ) α := caught x.report

theorem overrideBy_standard (s : Settings) (o : String × Datum) :
    overrideBy (.standard : Libraries τ) s o = (s.override o.1 o.2).report := by
  obtain ⟨name, d⟩ := o
  cases d <;> rfl

/-- Layers are put together by checks, unless they give the settings themselves. -/
theorem layer_eq (given : Given) (env : Environment) (overrides : Given) :
    layer given env overrides =
      (if given.any (·.1 == ownName) then .error .wrongType
      else accepted (build env given) >>= fun s =>
        overrides.foldlM (fun s o => accepted (s.override o.1 o.2)) s :
        Except (Failure τ) Settings) := by
  rw [layer, layerBy]
  simp only [overrideBy_standard]
  unfold Libraries.standard
  dsimp only
  split <;> rfl

theorem override_of_notNull (s : Settings) {d e : Datum} (h : Setting.notNull? d = some e)
    (name : String) : s.override name d = s.assign name e := by
  cases d <;> cases h <;> rfl

/-- An override sets its own setting alone, if what it gives is taken. -/
theorem override_cases (s : Settings) (k : Setting) (d : Datum) :
    (∃ s', s.override k.name d = .ok s' ∧
      k.Becomes (Setting.notNull? d) (s.get k) (s'.get k) ∧ ∀ l, l ≠ k → s'.get l = s.get l) ∨
    (∃ faults, s.override k.name d = .faulty faults) ∧ ¬ k.Takes (Setting.notNull? d) := by
  cases hgiven : Setting.notNull? d with
  | none =>
    cases d <;> first | exact .inl ⟨s, rfl, rfl, fun _ _ => rfl⟩ | cases hgiven
  | some e =>
    rw [override_of_notNull s hgiven k.name, assign_name]
    obtain ⟨v, hv⟩ | ⟨faults, hfaults⟩ := k.check_cases e
    · refine .inl ⟨s.put k v, by rw [hv]; rfl, ?_, fun l hl => get_put_other s hl v⟩
      rw [get_put_self]
      exact hv
    · refine .inr ⟨⟨_, by rw [hfaults]; rfl⟩, fun htaken => ?_⟩
      obtain ⟨v, hv⟩ := htaken e rfl
      rw [hfaults] at hv
      cases hv

/-- Overrides under different names are taken where each of them is, and each sets its own setting
alone. -/
theorem overrides_cases {overrides : Given} (h : Named overrides)
    (honce : (overrides.map (·.1)).Nodup) (s : Settings) :
    (∃ s', overrides.foldlM (fun s o => accepted (s.override o.1 o.2)) s =
        (.ok s' : Except (Failure τ) Settings) ∧
      ∀ k : Setting, k.Becomes (k.inOverrides overrides) (s.get k) (s'.get k)) ∨
    (∃ faults, overrides.foldlM (fun s o => accepted (s.override o.1 o.2)) s =
        (.error (.invalidSettings faults) : Except (Failure τ) Settings)) ∧
      ¬ ∀ k : Setting, k.Takes (k.inOverrides overrides) := by
  induction overrides generalizing s with
  | nil => exact .inl ⟨s, rfl, fun k => rfl⟩
  | cons o rest ih =>
    obtain ⟨name, d⟩ := o
    obtain ⟨⟨k, rfl⟩, hnamed⟩ := List.forall_mem_cons.mp h
    obtain ⟨hfresh, honce⟩ := List.nodup_cons.mp honce
    have hrest : k.inOverrides rest = none := Setting.inOverrides_eq_none hfresh
    simp only [List.foldlM_cons, Setting.inOverrides_cons]
    obtain ⟨s', hs', hset, hkept⟩ | ⟨⟨faults, hfaults⟩, hrefused⟩ := override_cases s k d
    · -- What the first override leaves is what the others find, and these leave its setting.
      rw [hs']
      obtain ⟨s'', hs'', hbecomes⟩ | ⟨hfaulty, hrefused⟩ := ih hnamed honce s'
      · refine .inl ⟨s'', hs'', fun l => ?_⟩
        have hl := hbecomes l
        by_cases hlk : l = k
        · subst hlk
          rw [hrest] at hl
          rw [if_pos rfl, show s''.get l = s'.get l from hl]
          exact hset
        · rw [if_neg hlk, ← hkept l hlk]
          exact hl
      · refine .inr ⟨hfaulty, fun htaken => hrefused fun l => ?_⟩
        by_cases hlk : l = k
        · subst hlk
          rw [hrest]
          exact nofun
        · have hl := htaken l
          rwa [if_neg hlk] at hl
    · rw [hfaults]
      refine .inr ⟨⟨faults, rfl⟩, fun htaken => hrefused ?_⟩
      have hk := htaken k
      rwa [if_pos rfl] at hk

theorem load_eq_layer {file : Option SettingsFile} {given : Given}
    (h : filed file = (.ok given : Except (Failure τ) Given)) (env : Environment)
    (overrides : Given) :
    load file env overrides = (layer given env overrides : Except (Failure τ) Settings) := by
  rw [load, loadBy, show filedBy .standard file = .ok given from h]
  rfl

/-- Layers go together where each setting takes what is given for it, and each setting then has
the value of the highest layer that gives it. -/
theorem layer_cases {given overrides : Given} (hgiven : Named given) (hoverrides : Named overrides)
    (honce : (overrides.map (·.1)).Nodup) (env : Environment) :
    (∃ s, layer given env overrides = (.ok s : Except (Failure τ) Settings) ∧
      (∀ k : Setting, k.Takes (k.inSources env given) ∧ k.Takes (k.inOverrides overrides)) ∧
      ∀ k : Setting,
        k.Becomes ((k.inOverrides overrides).or (k.inSources env given)) k.initial (s.get k)) ∨
    (∃ faults, layer given env overrides =
        (.error (.invalidSettings faults) : Except (Failure τ) Settings)) ∧
      ¬ ∀ k : Setting, k.Takes (k.inSources env given) ∧ k.Takes (k.inOverrides overrides) := by
  rw [layer_eq, any_ownName_of_named hgiven]
  obtain ⟨built, hbuilt, hsources⟩ | ⟨⟨faults, hfaults⟩, hrefused⟩ := build_cases hgiven env
  · rw [hbuilt]
    obtain ⟨s, hs, hset⟩ | ⟨hfaulty, hrefused⟩ := overrides_cases (τ := τ) hoverrides honce built
    · exact .inl ⟨s, hs, fun k => ⟨(hsources k).takes, (hset k).takes⟩,
        fun k => (hsources k).trans (hset k)⟩
    · exact .inr ⟨hfaulty, fun htaken => hrefused fun k => (htaken k).2⟩
  · rw [hfaults]
    exact .inr ⟨⟨faults, rfl⟩, fun htaken => hrefused fun k => (htaken k).1⟩

/-- Values of a file below those of the environment are not looked at. -/
theorem layer_congr {given given' : Given} (hgiven : Named given) (hgiven' : Named given')
    {env : Environment}
    (h : ∀ k : Setting, k.inEnvironment env = none →
      k.inSources env given' = k.inSources env given) (overrides : Given) :
    layer given' env overrides = (layer given env overrides : Except (Failure τ) Settings) := by
  have hsources (k : Setting) : k.inSources env given' = k.inSources env given := by
    cases henv : k.inEnvironment env with
    | none => exact h k henv
    | some text => rw [Setting.inSources, Setting.inSources, henv]
  have hbuild : build env given' = build env given := by
    rw [build_eq hgiven, build_eq hgiven']
    simp only [hsources]
  rw [layer_eq, layer_eq, any_ownName_of_named hgiven, any_ownName_of_named hgiven', hbuild]

/-- Each setting is read from the highest of the layers that give it: an override that is not null,
the environment, the file. Loading goes well exactly if each setting takes what its override gives
and takes what the environment or else the file gives; a value of the file below one of the
environment is not looked at. Whatever is refused is a fault in the settings. -/
theorem load_layered {file : Option SettingsFile} {given overrides : Given}
    (hfile : filed file = (.ok given : Except (Failure τ) Given)) (hgiven : Named given)
    (hoverrides : Named overrides) (honce : (overrides.map (·.1)).Nodup) (env : Environment) :
    ((∃ s, load file env overrides = (.ok s : Except (Failure τ) Settings)) ↔
      ∀ k : Setting, k.Takes (k.inSources env given) ∧ k.Takes (k.inOverrides overrides)) ∧
    (∀ s, load file env overrides = (.ok s : Except (Failure τ) Settings) →
      ∀ k : Setting,
        k.Becomes ((k.inOverrides overrides).or (k.inSources env given)) k.initial (s.get k)) ∧
    (∀ e : Failure τ, load file env overrides = .error e → ∃ faults, e = .invalidSettings faults) ∧
    (∀ (file' : Option SettingsFile) (given' : Given),
      filed file' = (.ok given' : Except (Failure τ) Given) → Named given' →
      (∀ k : Setting, k.inEnvironment env = none →
        k.inSources env given' = k.inSources env given) →
      load file' env overrides = (load file env overrides : Except (Failure τ) Settings)) := by
  have hhidden (file' : Option SettingsFile) (given' : Given)
      (hfile' : filed file' = (.ok given' : Except (Failure τ) Given)) (hgiven' : Named given')
      (h : ∀ k : Setting, k.inEnvironment env = none →
        k.inSources env given' = k.inSources env given) :
      load file' env overrides = (load file env overrides : Except (Failure τ) Settings) := by
    rw [load_eq_layer hfile, load_eq_layer hfile']
    exact layer_congr hgiven hgiven' h overrides
  obtain ⟨s, hs, htaken, hset⟩ | ⟨⟨faults, hfaults⟩, hrefused⟩ :=
    layer_cases (τ := τ) hgiven hoverrides honce env
  · rw [← load_eq_layer hfile] at hs
    refine ⟨⟨fun _ => htaken, fun _ => ⟨s, hs⟩⟩, fun s' hs' => ?_, fun e he => ?_, hhidden⟩
    · cases hs.symm.trans hs'
      exact hset
    · exact nomatch hs.symm.trans he
  · rw [← load_eq_layer hfile] at hfaults
    refine ⟨⟨fun ⟨s, hs⟩ => ?_, fun htaken => absurd htaken hrefused⟩, fun s hs => ?_,
      fun e he => ?_, hhidden⟩
    · exact nomatch hfaults.symm.trans hs
    · exact nomatch hfaults.symm.trans hs
    · cases hfaults.symm.trans he
      exact ⟨faults, rfl⟩


/-- A file that targets a space; its size of pages is none that is taken. -/
def targetingFile : SettingsFile :=
  ⟨"ops.yml", some "organization: acme\npage_size: 500\nspace: dev\n".toUTF8⟩

def targetingGiven : Given :=
  [("organization", .text "acme"), ("page_size", .int 500), ("space", .text "dev")]

def targetingEnvironment : Environment :=
  [("CF_OPERATIONS_PAGE_SIZE", "20"), ("Cf_Operations_Space", "ops")]

def targetingOverrides : Given :=
  [("space", .text " prod "), ("organization", .null), ("verify_ssl", .text "off")]

def isTargeting : Except (Failure Nat) Given → Bool
  | .ok [("organization", .text "acme"), ("page_size", .int 500), ("space", .text "dev")] => true
  | _ => false

theorem filed_targetingFile :
    filed (some targetingFile) = (.ok targetingGiven : Except (Failure Nat) Given) := by
  have h : isTargeting (filed (some targetingFile)) = true := by decide +kernel
  unfold isTargeting at h
  split at h
  · rename_i hgiven
    exact hgiven
  · cases h

/-- Settings from all three layers: the environment hides the file's bad size of pages, an override
comes before both, and one that is null leaves the file's organization. -/
theorem load_layered_targeting :
    ∃ s, load (some targetingFile) targetingEnvironment targetingOverrides =
        (.ok s : Except (Failure Nat) Settings) ∧
      s.organization = some "acme" ∧ s.space = some "prod" ∧ s.pageSize = 20 ∧
      s.verifySsl = false ∧ s.token = "" := by
  have hgiven : Named targetingGiven :=
    ((Named.nil.cons .space _).cons .pageSize _).cons .organization _
  have hoverrides : Named targetingOverrides :=
    ((Named.nil.cons .verifySsl _).cons .organization _).cons .space _
  obtain ⟨hsucceeds, hvalues, -, -⟩ :=
    load_layered filed_targetingFile hgiven hoverrides (by decide) targetingEnvironment
  obtain ⟨s, hs⟩ := hsucceeds.mpr fun k => by
    cases k <;> constructor <;> rintro d ⟨⟩ <;> exact ⟨_, rfl⟩
  have hvalue := hvalues s hs
  exact ⟨s, hs, (Checked.ok.inj (hvalue .organization)).symm, (Checked.ok.inj (hvalue .space)).symm,
    (Checked.ok.inj (hvalue .pageSize)).symm, (Checked.ok.inj (hvalue .verifySsl)).symm,
    hvalue .token⟩

end Settings

end PlatformRoutes
