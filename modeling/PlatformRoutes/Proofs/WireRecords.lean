import PlatformRoutes.Proofs.PageReading
import PlatformRoutes.Proofs.StatusReading
import PlatformRoutes.Proofs.Transcript

namespace PlatformRoutes

namespace Json.Fields

variable {α : Type} {fields : Fields} {name : String} {v : Json} {read : Json → Checked α} {a : α}

theorem required_ok (hv : fields.get? name = some v) (ha : read v = .ok a) :
    fields.required name read = .ok a := by
  rw [required, hv]
  dsimp only
  rw [ha]
  rfl

theorem optional_ok {default : α} (hv : fields.get? name = some v) (ha : read v = .ok a) :
    fields.optional name default read = .ok a := by
  rw [optional, hv]
  dsimp only
  rw [ha]
  rfl

theorem nonEmptyText_text {s : String} (h : s ≠ "") : nonEmptyText (.text s) = .ok s := by
  change Checked.nonEmpty s = _
  simp [Checked.nonEmpty, h]

end Json.Fields

namespace Http

variable {τ : Type}

/-- Whether an optional text stands in a field: a text as itself, and nothing as null or not at
all. -/
def writes : Option Json → Option String → Bool
  | some (.text t), some s => t == s
  | some .null, none | none, none => true
  | _, _ => false

/-- Whether a text that may be empty stands in a field; an empty one may be left out. -/
def writesText (v : Option Json) (s : String) : Bool :=
  writes v (some s) || s.isEmpty && writes v none

def writesInt : Option Json → Int → Bool
  | some (.int m), n => m == n
  | _, _ => false

/-- The id among the metadata and the fields of the entity, of what is wrapped up in both. -/
def wrapped : Json → Option (String × Json.Fields)
  | .object fields =>
    match Json.Fields.get? fields "metadata", Json.Fields.get? fields "entity" with
    | some (.object metadata), some (.object entity) =>
      match Json.Fields.get? metadata "guid" with
      | some (.text guid) => some (guid, entity)
      | _ => none
    | _, _ => none
  | _ => none

/-- Whether a record stands among the fields of an entity. The kind of a domain is not written. -/
def writesFields (entity : Json.Fields) : (resource : Resource) → resource.Item → Bool
  | .organizations, r | .organizationSpaces, r | .spaceApplications, r | .routeApplications, r =>
    writesText (entity.get? "name") (Ref.name r)
  | .organizationPrivateDomains, d | .sharedDomains, d =>
    writesText (entity.get? "name") (Domain.name d) &&
      writes (entity.get? "owning_organization_guid") (Domain.owner d)
  | .routes, r | .spaceRoutes, r =>
    writes (entity.get? "domain_guid") (some (Route.domainId r)) &&
      writesText (entity.get? "space_guid") (Route.spaceId r) &&
      writesText (entity.get? "host") (Route.host r) &&
      writesText (entity.get? "path") (Route.path r) &&
      writes (entity.get? "service_instance_guid") (Route.serviceInstanceId r)

def idOf : (resource : Resource) → resource.Item → String
  | .organizations, r | .organizationSpaces, r | .spaceApplications, r | .routeApplications, r =>
    Ref.id r
  | .organizationPrivateDomains, d | .sharedDomains, d => Domain.id d
  | .routes, r | .spaceRoutes, r => Route.id r

/-- Whether a record stands on the wire, among whatever else there is. -/
def writesItem (resource : Resource) (item : Json) (x : resource.Item) : Bool :=
  match wrapped item with
  | some (guid, entity) => guid == idOf resource x && writesFields entity resource x
  | none => false

/-- Whether a listing can hold the record. -/
def wellFormed : (resource : Resource) → resource.Item → Bool
  | .organizations, r | .organizationSpaces, r | .spaceApplications, r | .routeApplications, r =>
    Ref.id r != "" && Text.strip (Ref.id r) == Ref.id r && Text.strip (Ref.name r) == Ref.name r
  | .organizationPrivateDomains, d => Domain.id d != "" && Domain.kind d == .owned
  | .sharedDomains, d => Domain.id d != "" && Domain.kind d == .shared
  | .routes, r | .spaceRoutes, r =>
    Route.id r != "" && Route.domainId r != "" &&
      normalSegment (some (Route.host r)) == Route.host r &&
      normalPath (some (Route.path r)) == Route.path r && Route.serviceInstanceId r != some ""

/-- Whether a page stands on the wire: its records in their order, and the number of all pages. -/
def writesPage (resource : Resource) (total : Nat) (v : Json) (items : List resource.Item) : Bool :=
  match v with
  | .object fields =>
    match Json.Fields.get? fields "resources" with
    | some (.list records) =>
      List.all₂ (writesItem resource) records items &&
        writesInt (Json.Fields.get? fields "total_pages") total
    | _ => false
  | _ => false

/-- Whether the details of a failed job stand in a field. -/
def writesDetails : Option Json → Option ErrorDetails → Bool
  | some (.object fields), some d =>
    writesInt (Json.Fields.get? fields "code") d.code &&
      writesText (Json.Fields.get? fields "description") d.description &&
      writesText (Json.Fields.get? fields "error_code") d.errorCode
  | some .null, none | none, none => true
  | _, _ => false

/-- Whether a job stands on the wire, its status in any letter case. -/
def writesJob (item : Json) (job : Job) : Bool :=
  match wrapped item with
  | some (guid, entity) =>
    guid == job.id &&
      (match entity.get? "status" with
        | some (.text status) => Text.lower status == job.status.name
        | _ => false) &&
      writesDetails (entity.get? "error_details") job.details
  | none => false

variable {v : Option Json} {s : String} {value : Option String}

theorem writes_cases (h : writes v value = true) :
    (∃ s, v = some (.text s) ∧ value = some s) ∨ (v = some .null ∨ v = none) ∧ value = none := by
  unfold writes at h
  split at h
  · rename_i t s
    rw [beq_iff_eq] at h
    subst h
    exact .inl ⟨t, rfl, rfl⟩
  · exact .inr ⟨.inl rfl, rfl⟩
  · exact .inr ⟨.inr rfl, rfl⟩
  · cases h

theorem writesText_cases (h : writesText v s = true) :
    v = some (.text s) ∨ (v = some .null ∨ v = none) ∧ s = "" := by
  simp only [writesText, Bool.or_eq_true, Bool.and_eq_true, String.isEmpty_iff] at h
  rcases h with h | ⟨hempty, h⟩
  · rcases writes_cases h with ⟨t, hv, ht⟩ | ⟨-, hnone⟩
    · cases ht
      exact .inl hv
    · cases hnone
  · rcases writes_cases h with ⟨t, -, ht⟩ | ⟨hv, -⟩
    · cases ht
    · exact .inr ⟨hv, hempty⟩

theorem writesInt_eq {n : Int} (h : writesInt v n = true) : v = some (.int n) := by
  unfold writesInt at h
  split at h
  · rw [beq_iff_eq] at h
    rw [h]
  · cases h

theorem fieldsOrNone_object (fields : Json.Fields) :
    (fieldsOrNone (some (.object fields)) : Parsed τ Json.Fields) = .ok fields := by
  cases fields with
  | nil => rfl
  | cons f rest => rfl

/-- A text is read back where an absent field counts as an empty one. -/
theorem orEmpty_of_writes (h : writesText v s = true) :
    (present v).getD (.text "") = .text s := by
  rcases writesText_cases h with rfl | ⟨rfl | rfl, rfl⟩
  · by_cases hs : s = ""
    · subst hs
      rfl
    · rw [present_text hs]
      rfl
  · rfl
  · rfl

theorem plainOr_of_writes (h : writesText v s = true) : plainOr "" v = s := by
  rcases writesText_cases h with rfl | ⟨rfl | rfl, rfl⟩
  · by_cases hs : s = ""
    · subst hs
      rfl
    · rw [plainOr, present_text hs]
      rfl
  · rfl
  · rfl

/-- A segment in normal form is read back, be it written or left out. -/
theorem segment_of_writes {normal : Option String → String} (h : writesText v s = true)
    (hnormal : normal (some s) = s) (hnone : normal none = "") :
    Route.segmentOf normal (v.getD .null) = .ok s := by
  rcases writesText_cases h with rfl | ⟨rfl | rfl, rfl⟩
  · exact congrArg Checked.ok hnormal
  · exact congrArg Checked.ok hnone
  · exact congrArg Checked.ok hnone

theorem textOrNull_of_writes (h : writes v value = true) :
    Json.Fields.textOrNull (v.getD .null) = .ok value := by
  rcases writes_cases h with ⟨s, rfl, rfl⟩ | ⟨rfl | rfl, rfl⟩ <;> rfl

theorem service_of_writes (h : writes v value = true) (hne : value ≠ some "") :
    Route.serviceOf (v.getD .null) = .ok value := by
  rcases writes_cases h with ⟨s, rfl, rfl⟩ | ⟨rfl | rfl, rfl⟩
  · have htruthy : (Json.text s).isTruthy = true := by
      simp only [ne_eq, Option.some.injEq] at hne
      simp [Json.isTruthy, hne]
    rw [Option.getD_some, Route.serviceOf, if_pos htruthy]
    rfl
  · rfl
  · rfl

/-- A whole number is read back, zero included. -/
theorem wholeOrZero_of_writes {n : Int} (h : writesInt v n = true) :
    (wholeOrZero v : Parsed τ Int) = .ok n := by
  rw [writesInt_eq h]
  by_cases hn : n = 0
  · subst hn
    rfl
  · have htruthy : (Json.int n).isTruthy = true := by simp [Json.isTruthy, hn]
    have hpresent : present (some (.int n)) = some (.int n) := by
      simp [present, Option.filter, htruthy]
    rw [wholeOrZero, hpresent]

variable {item : Json} {guid : String} {entity : Json.Fields}

theorem open_of_wrapped (h : wrapped item = some (guid, entity)) (hne : guid ≠ "") :
    (Envelope.open item : Parsed τ Envelope) = .ok ⟨guid, entity⟩ := by
  unfold wrapped at h
  split at h
  · rename_i fields
    split at h
    · rename_i metadata entity' hmetadata hentity
      split at h
      · rename_i guid' hguid
        cases h
        have hpresent := present_text hne
        simp only [Envelope.open, fieldsOf, hmetadata, hentity, fieldsOrNone_object, bind,
          Except.bind, pure, Except.pure, hguid, hpresent, Option.some_or, Option.map_some, Json.plain,
          Option.getD_some]
      · cases h
    · cases h
  · cases h

theorem toRef_of_writes {r : Ref} (hr : wellFormed .organizations r = true)
    (h : writesFields entity .organizations r = true) : Envelope.toRef ⟨r.id, entity⟩ = .ok r := by
  simp only [wellFormed, Bool.and_eq_true, bne_iff_ne, beq_iff_eq] at hr
  obtain ⟨⟨hid, hstrip⟩, hname⟩ := hr
  have htext : Json.Fields.text (Envelope.fieldOrEmpty ⟨r.id, entity⟩ "name") = .ok r.name := by
    rw [Envelope.fieldOrEmpty, orEmpty_of_writes h]
    rfl
  unfold Envelope.toRef Ref.ofFields
  rw [Json.Fields.required_ok rfl (Json.Fields.nonEmptyText_text hid),
    Json.Fields.optional_ok rfl htext]
  change Checked.ok (Ref.mk (Text.strip r.id) (Text.strip r.name)) = _
  rw [hstrip, hname]

theorem toDomain_of_writes {d : Domain} (hid : d.id ≠ "")
    (h : writesFields entity .sharedDomains d = true) :
    Envelope.toDomain d.kind ⟨d.id, entity⟩ = .ok d := by
  simp only [writesFields, Bool.and_eq_true] at h
  obtain ⟨hname, howner⟩ := h
  have htext : Json.Fields.text (Envelope.fieldOrEmpty ⟨d.id, entity⟩ "name") = .ok d.name := by
    rw [Envelope.fieldOrEmpty, orEmpty_of_writes hname]
    rfl
  have hkind : DomainKind.ofJson (.text d.kind.name) = .ok d.kind := by cases d.kind <;> rfl
  have hread : Json.Fields.textOrNull (Envelope.field ⟨d.id, entity⟩ "owning_organization_guid") =
      .ok d.owner := textOrNull_of_writes howner
  unfold Envelope.toDomain Domain.ofFields
  rw [Json.Fields.required_ok rfl (Json.Fields.nonEmptyText_text hid),
    Json.Fields.required_ok rfl htext, Json.Fields.required_ok rfl hkind,
    Json.Fields.optional_ok rfl hread]
  rfl

theorem toRoute_of_writes {r : Route} (hr : wellFormed .routes r = true)
    (h : writesFields entity .routes r = true) : Envelope.toRoute ⟨r.id, entity⟩ = .ok r := by
  simp only [wellFormed, Bool.and_eq_true, bne_iff_ne, beq_iff_eq] at hr
  obtain ⟨⟨⟨⟨hid, hdomain⟩, hhost⟩, hpath⟩, hservice⟩ := hr
  simp only [writesFields, Bool.and_eq_true] at h
  obtain ⟨⟨⟨⟨domain, space⟩, host⟩, path⟩, service⟩ := h
  have htext : writesText (entity.get? "domain_guid") r.domainId = true := by
    simp [writesText, domain]
  have hread : Json.Fields.nonEmptyText (Envelope.fieldOrEmpty ⟨r.id, entity⟩ "domain_guid") =
      .ok r.domainId := by
    rw [Envelope.fieldOrEmpty, orEmpty_of_writes htext]
    exact Json.Fields.nonEmptyText_text hdomain
  have hspace : Json.Fields.text (Envelope.fieldOrEmpty ⟨r.id, entity⟩ "space_guid") =
      .ok r.spaceId := by
    rw [Envelope.fieldOrEmpty, orEmpty_of_writes space]
    rfl
  exact Route.ReadFrom.ofFields_eq
    { id := Json.Fields.required_ok rfl (Json.Fields.nonEmptyText_text hid)
      domainId := Json.Fields.required_ok rfl hread
      spaceId := Json.Fields.optional_ok rfl hspace
      host := Json.Fields.optional_ok rfl (segment_of_writes host hhost rfl)
      path := Json.Fields.optional_ok rfl (segment_of_writes path hpath rfl)
      service := Json.Fields.optional_ok rfl (service_of_writes service hservice) } rfl

theorem writesItem_iff {resource : Resource} {x : resource.Item} :
    writesItem resource item x = true ↔ ∃ entity, wrapped item = some (idOf resource x, entity) ∧
      writesFields entity resource x = true := by
  unfold writesItem
  cases h : wrapped item with
  | none => simp
  | some found =>
    obtain ⟨guid, entity⟩ := found
    simp

/-- A well-formed record is read back from the wire, whatever the listing. -/
theorem parseItem_of_writes {resource : Resource} {x : resource.Item}
    (h : writesItem resource item x = true) (hx : wellFormed resource x = true) :
    (parseItem resource item : Parsed τ resource.Item) = .ok x := by
  obtain ⟨entity, hwrapped, hfields⟩ := writesItem_iff.mp h
  cases resource with
  | organizations | organizationSpaces | spaceApplications | routeApplications =>
    have hid : Ref.id x ≠ "" := by
      simp only [wellFormed, Bool.and_eq_true, bne_iff_ne] at hx
      exact hx.1.1
    rw [parseItem, open_of_wrapped hwrapped hid]
    change (Envelope.toRef _).toExcept = _
    rw [idOf, toRef_of_writes hx hfields]
    rfl
  | organizationPrivateDomains | sharedDomains =>
    simp only [wellFormed, Bool.and_eq_true, bne_iff_ne, beq_iff_eq] at hx
    obtain ⟨hid, hkind⟩ := hx
    rw [parseItem, open_of_wrapped hwrapped hid]
    change (Envelope.toDomain _ _).toExcept = _
    rw [← hkind, idOf, toDomain_of_writes hid hfields]
    rfl
  | routes | spaceRoutes =>
    have hid : Route.id x ≠ "" := by
      simp only [wellFormed, Bool.and_eq_true, bne_iff_ne] at hx
      exact hx.1.1.1.1
    rw [parseItem, open_of_wrapped hwrapped hid]
    change (Envelope.toRoute _).toExcept = _
    rw [idOf, toRoute_of_writes hx hfields]
    rfl

theorem parseItems_of_writes {resource : Resource} {records : List Json}
    {items : List resource.Item} (h : List.Forall₂ (fun v x => writesItem resource v x) records items)
    (hitems : ∀ x ∈ items, wellFormed resource x = true) :
    (records.mapM (parseItem resource) : Parsed τ (List resource.Item)) = .ok items := by
  induction h with
  | nil => rfl
  | @cons record x records items hwrites _ ih =>
    rw [List.mapM_cons, parseItem_of_writes hwrites (hitems x List.mem_cons_self),
      ih fun y hy => hitems y (List.mem_cons_of_mem x hy)]
    rfl

/-- A page is read back from the wire under the number it was asked for by. -/
theorem parsePage_of_writes {resource : Resource} {v : Json} {items : List resource.Item}
    {total number : Nat} (h : writesPage resource total v items = true)
    (hitems : ∀ x ∈ items, wellFormed resource x = true) (hnumber : 1 ≤ number) :
    (parsePage resource number v : Parsed τ (Page resource.Item)) = .ok ⟨items, number, total⟩ := by
  have hof : Page.of items (number : Int) total = .ok ⟨items, number, total⟩ := by
    have hlow : ¬ (number : Int) < 1 := by omega
    have htotal : ¬ (total : Int) < 0 := by omega
    simp only [Page.of, Checked.atLeast, hlow, htotal, if_false]
    rfl
  unfold writesPage at h
  split at h
  · rename_i fields
    split at h
    · rename_i records hresources
      rw [Bool.and_eq_true, List.all₂_eq_true] at h
      simp only [parsePage, fieldsOf, hresources, itemsOf, bind, Except.bind,
        parseItems_of_writes h.1 hitems, wholeOrZero_of_writes h.2, hof]
      rfl
    · cases h
  · cases h

theorem details_of_writes {details : Option ErrorDetails}
    (h : writesDetails (entity.get? "error_details") details = true) :
    (Envelope.details ⟨guid, entity⟩ : Parsed τ (Option ErrorDetails)) = .ok details := by
  unfold Envelope.details
  generalize entity.get? "error_details" = v at h
  unfold writesDetails at h
  split at h
  · rename_i fields d
    simp only [Bool.and_eq_true] at h
    obtain ⟨⟨hcode, hdescription⟩, herror⟩ := h
    have hpresent : present (some (.object fields)) = some (.object fields) := by
      cases fields with
      | nil => cases hcode
      | cons f rest => rfl
    simp only [hpresent, fieldsOf, wholeOrZero_of_writes hcode, plainOr_of_writes hdescription,
      plainOr_of_writes herror, bind, Except.bind, pure, Except.pure]
  · rfl
  · rfl
  · cases h

/-- A job is read back from the wire. -/
theorem parseJob_of_writes {job : Job} (h : writesJob item job = true) (hid : job.id ≠ "") :
    (parseJob item : Parsed τ Job) = .ok job := by
  have hempty : job.id.isEmpty = false := by simpa using hid
  unfold writesJob at h
  split at h
  · rename_i guid entity hwrapped
    simp only [Bool.and_eq_true, beq_iff_eq] at h
    obtain ⟨⟨rfl, hstatus⟩, hdetails⟩ := h
    split at hstatus
    · rename_i status hfield
      rw [beq_iff_eq] at hstatus
      rw [parseJob, open_of_wrapped hwrapped hid]
      change (Envelope.toJob _ : Parsed τ Job) = _
      rw [Envelope.toJob, details_of_writes hdetails, Envelope.status_of_text hfield hstatus]
      simp only [hempty, bind, Except.bind, pure, Except.pure]
      rfl
    · cases hstatus
  · cases h

end Http

end PlatformRoutes
