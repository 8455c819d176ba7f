import PlatformRoutes.Proofs.NormalForms

namespace PlatformRoutes

/-- A host and a path as someone writes them. Either may be left out. -/
structure Spelling where
  host : Option String
  path : Option String

namespace Spelling

/-- What the spelling comes to in a domain. -/
def key (x : Spelling) (domainId : String) : RouteKey := .of domainId x.host x.path

/-- Both parts without the blanks around them. -/
def stripped (x : Spelling) : Spelling := ⟨some (normalSegment x.host), some (normalSegment x.path)⟩

/-- Both parts as routes hold them. -/
def normal (x : Spelling) : Spelling := ⟨some (normalSegment x.host), some (normalPath x.path)⟩

/-- How people name the route. -/
def describe (x : Spelling) (domain : String) : String := describeRoute domain x.host x.path

end Spelling

/-- A field holds what is written for it. Where nothing is written it is null, or is not there. -/
def Json.Fields.Holds (fields : Json.Fields) (name : String) : Option String → Prop
  | some s => fields.get? name = some (.text s)
  | none => fields.get? name = some .null ∨ fields.get? name = none

/-- A route that is made of a domain's id and a spelling, whatever else it is made of. -/
def Route.BuiltWith (r : Route) (domainId : String) (x : Spelling) : Prop :=
  ∃ fields, Route.ofFields fields = .ok r ∧ fields.get? "domain_id" = some (.text domainId) ∧
    fields.Holds "host" x.host ∧ fields.Holds "path" x.path

/-- Whoever asks for the one spelling is given the routes that were made with the other. -/
def Spelling.Same (x y : Spelling) : Prop :=
  ∀ domainId (r : Route), r.BuiltWith domainId x → r.fits y.host y.path = true

namespace Route

variable {r : Route} {fields : Json.Fields} {domainId name s : String} {x y : Spelling}

theorem segment_of_holds {normal : Option String → String} {value : Option String}
    (hnone : normal none = "") (hvalue : fields.Holds name value)
    (h : fields.optional name "" (segmentOf normal) = .ok s) : s = normal value := by
  unfold Json.Fields.optional at h
  cases value with
  | some t =>
    rw [hvalue] at h
    cases h
    rfl
  | none =>
    rcases hvalue with hnull | habsent
    · rw [hnull] at h
      cases h
      rfl
    · rw [habsent] at h
      cases h
      exact hnone.symm

theorem BuiltWith.key_eq (h : r.BuiltWith domainId x) : r.key = x.key domainId := by
  obtain ⟨fields, hread, hdomain, hhost, hpath⟩ := h
  have hfrom := ofFields_eq_ok hread
  obtain ⟨hgiven, -⟩ := Json.Fields.required_nonEmptyText hfrom.domainId
  rw [hdomain] at hgiven
  cases hgiven
  rw [key, segment_of_holds rfl hhost hfrom.host, segment_of_holds rfl hpath hfrom.path]
  rfl

theorem segmentOf_written (normal : Option String → String) (value : Option String) :
    segmentOf normal ((value.map .text).getD .null) = .ok (normal value) := by
  cases value <;> rfl

theorem serviceOf_written (service : Option String) :
    serviceOf ((service.map .text).getD .null) = .ok (service.filter fun s => !s.isEmpty) := by
  cases service with
  | none => rfl
  | some s =>
    by_cases h : s = ""
    · subst h
      rfl
    · simp [serviceOf, Json.isTruthy, Option.filter, h]
      rfl

theorem holds_written {value : Option String}
    (h : fields.get? name = some ((value.map .text).getD .null)) : fields.Holds name value := by
  cases value with
  | none => exact .inl h
  | some s => exact h

/-- The routes that a platform makes are made with the spelling that they are asked for with. -/
theorem of_builtWith {id : String} (hid : id ≠ "") (hdomain : domainId ≠ "") (spaceId : String)
    (x : Spelling) (service : Option String) :
    (Route.of id domainId spaceId x.host x.path service).BuiltWith domainId x := by
  refine ⟨[("id", .text id), ("domain_id", .text domainId), ("space_id", .text spaceId),
    ("host", (x.host.map .text).getD .null), ("path", (x.path.map .text).getD .null),
    ("service_instance_id", (service.map .text).getD .null)], ?_, rfl, holds_written rfl,
    holds_written rfl⟩
  apply ReadFrom.ofFields_eq
  · exact {
      id := Json.Fields.required_ok rfl (Json.Fields.nonEmptyText_text hid)
      domainId := Json.Fields.required_ok rfl (Json.Fields.nonEmptyText_text hdomain)
      spaceId := Json.Fields.optional_ok rfl rfl
      host := Json.Fields.optional_ok rfl (segmentOf_written normalSegment x.host)
      path := Json.Fields.optional_ok rfl (segmentOf_written normalPath x.path)
      service := Json.Fields.optional_ok rfl (serviceOf_written service) }
  · rfl

theorem BuiltWith.domainId_ne_empty (h : r.BuiltWith domainId x) : domainId ≠ "" := by
  obtain ⟨fields, hread, hdomain, -, -⟩ := h
  obtain ⟨hgiven, hne⟩ := Json.Fields.required_nonEmptyText (ofFields_eq_ok hread).domainId
  rw [hdomain] at hgiven
  cases hgiven
  exact hne

theorem exists_builtWith (h : domainId ≠ "") (x : Spelling) :
    ∃ r : Route, r.BuiltWith domainId x := by
  have hid : "route-1" ≠ "" := by simp
  exact ⟨_, of_builtWith hid h "" x none⟩

theorem fits_iff_normal : r.fits y.host y.path = true ↔
    r.host = normalSegment y.host ∧ r.path = normalPath y.path := by
  simp [fits]

/-- A route answers to a spelling just where that comes to the route's own key. -/
theorem BuiltWith.fits_iff (h : r.BuiltWith domainId x) :
    r.fits y.host y.path = true ↔ y.key domainId = r.key := by
  have hdomain : r.domainId = domainId := congrArg RouteKey.domainId h.key_eq
  rw [fits_iff_normal, Spelling.key, RouteKey.of, key, RouteKey.mk.injEq, hdomain]
  constructor
  · rintro ⟨hhost, hpath⟩
    exact ⟨rfl, hhost.symm, hpath.symm⟩
  · rintro ⟨-, hhost, hpath⟩
    exact ⟨hhost.symm, hpath.symm⟩

end Route

namespace Spelling

variable {x y z : Spelling}

theorem key_eq_iff (domainId : String) : x.key domainId = y.key domainId ↔
    normalSegment x.host = normalSegment y.host ∧ normalPath x.path = normalPath y.path := by
  simp [key, RouteKey.of]

/-- Spellings are the same where host and path have the same normal forms. -/
theorem same_iff : Same x y ↔
    normalSegment x.host = normalSegment y.host ∧ normalPath x.path = normalPath y.path := by
  constructor
  · intro h
    have hdomain : "domain-1" ≠ "" := by simp
    obtain ⟨r, hr⟩ := Route.exists_builtWith hdomain x
    have hkey := hr.fits_iff.mp (h "domain-1" r hr)
    rw [hr.key_eq] at hkey
    exact (key_eq_iff "domain-1").mp hkey.symm
  · intro h domainId r hr
    rw [hr.fits_iff, hr.key_eq]
    exact ((key_eq_iff domainId).mpr h).symm

theorem same_equivalence : Equivalence Same where
  refl x := same_iff.mpr ⟨rfl, rfl⟩
  symm h := by
    obtain ⟨hhost, hpath⟩ := same_iff.mp h
    exact same_iff.mpr ⟨hhost.symm, hpath.symm⟩
  trans h h' := by
    obtain ⟨hhost, hpath⟩ := same_iff.mp h
    obtain ⟨hhost', hpath'⟩ := same_iff.mp h'
    exact same_iff.mpr ⟨hhost.trans hhost', hpath.trans hpath'⟩

theorem normal_same (x : Spelling) : Same x.normal x :=
  same_iff.mpr ⟨normalSegment_idem x.host, normalPath_idem x.path⟩

theorem stripped_same (x : Spelling) : Same x.stripped x :=
  same_iff.mpr ⟨normalSegment_idem x.host, normalPath_normalSegment x.path⟩

/-- A spelling may stand in for one that is the same, on either side. -/
theorem same_congr {x' y' : Spelling} (hx : Same x' x) (hy : Same y' y) :
    Same x' y' ↔ Same x y := by
  constructor
  · intro h
    exact same_equivalence.trans (same_equivalence.trans (same_equivalence.symm hx) h) hy
  · intro h
    exact same_equivalence.trans (same_equivalence.trans hx h) (same_equivalence.symm hy)

theorem same_of_mem {x' : Spelling} (h : x' ∈ [x, x.stripped, x.normal]) : Same x' x := by
  simp only [List.mem_cons, List.not_mem_nil, or_false] at h
  rcases h with rfl | rfl | rfl
  · exact same_equivalence.refl _
  · exact stripped_same _
  · exact normal_same _

theorem describe_congr (h : Same x y) (domain : String) :
    x.describe domain = y.describe domain := by
  obtain ⟨hhost, hpath⟩ := same_iff.mp h
  simp only [describe, describeRoute, hhost, hpath]

end Spelling

/-- Asking for a route by host and path is asking for its key: a route that was made with one
spelling answers to another just where a route made with that has the same key, and every spelling
makes routes. So answering to each other is an equivalence of spellings. It does not matter which of
them were stripped or brought to their normal form before, since either may be done again, and
stripping comes first anyway. Spellings that are the same are described alike. -/
theorem fits_iff_same_key :
    (∀ domainId (x y : Spelling) (r : Route), r.BuiltWith domainId x →
      (∃ r' : Route, r'.BuiltWith domainId y) ∧
        ∀ r' : Route, r'.BuiltWith domainId y → (r.fits y.host y.path = true ↔ r'.key = r.key)) ∧
      (∀ id domainId spaceId (x : Spelling) service, id ≠ "" → domainId ≠ "" →
        (Route.of id domainId spaceId x.host x.path service).BuiltWith domainId x) ∧
      Equivalence Spelling.Same ∧
      (∀ x y x' y' : Spelling, x' ∈ [x, x.stripped, x.normal] → y' ∈ [y, y.stripped, y.normal] →
        (Spelling.Same x' y' ↔ Spelling.Same x y)) ∧
      (∀ value : Option String,
        normalSegment (some (normalSegment value)) = normalSegment value ∧
          normalPath (some (normalPath value)) = normalPath value ∧
          normalPath (some (normalSegment value)) = normalPath value) ∧
      ∀ x y : Spelling, Spelling.Same x y → ∀ domain, x.describe domain = y.describe domain := by
  refine ⟨?keys, ?made, Spelling.same_equivalence, ?normalised, ?laws, ?described⟩
  case keys =>
    intro domainId x y r hr
    refine ⟨Route.exists_builtWith hr.domainId_ne_empty y, fun r' hr' => ?_⟩
    rw [hr.fits_iff, hr'.key_eq]
  case made =>
    intro id domainId spaceId x service hid hdomain
    exact Route.of_builtWith hid hdomain spaceId x service
  case normalised =>
    intro x y x' y' hx hy
    exact Spelling.same_congr (Spelling.same_of_mem hx) (Spelling.same_of_mem hy)
  case laws =>
    intro value
    exact ⟨normalSegment_idem value, normalPath_idem value, normalPath_normalSegment value⟩
  case described =>
    intro x y h domain
    exact Spelling.describe_congr h domain

/-- A host and a path with blanks around them, and without the slash that the path needs. -/
def padded : Spelling := ⟨some "\u00a0api", some "v1\u2003"⟩

/-- Blanks around either part make no difference, and neither does the slash that the path lacks. A
blank behind that slash does, and so does a slash at the end. -/
theorem fits_iff_same_key_padded :
    (Route.of "route-1" "domain-1" "" padded.host padded.path none).BuiltWith "domain-1" padded ∧
      (Route.of "route-1" "domain-1" "" padded.host padded.path none).fits (some "api") (some "/v1") =
        true ∧
      Spelling.Same padded.normal padded ∧
      padded.describe "example.com" = padded.normal.describe "example.com" ∧
      ¬ Spelling.Same padded ⟨some "api", some "/ v1"⟩ ∧
      ¬ Spelling.Same padded ⟨some "api", some "/v1/"⟩ := by
  obtain ⟨keys, made, equivalent, normalised, -, described⟩ := fits_iff_same_key
  have hmade := made "route-1" "domain-1" "" padded none (by simp) (by simp)
  have hplain := made "route-2" "domain-1" "space-1" ⟨some "api", some "/v1"⟩ none (by simp) (by simp)
  have hnormal : Spelling.Same padded.normal padded :=
    (normalised padded padded padded.normal padded (by simp) (by simp)).mpr (equivalent.refl padded)
  refine ⟨hmade, ?_, hnormal, (described _ _ hnormal "example.com").symm, ?_, ?_⟩
  · exact ((keys _ _ ⟨some "api", some "/v1"⟩ _ hmade).2 _ hplain).mpr (by decide +kernel)
  · rw [Spelling.same_iff]
    decide +kernel
  · rw [Spelling.same_iff]
    decide +kernel

end PlatformRoutes
