import PlatformRoutes.Proofs.WireRecords

namespace PlatformRoutes

/-- Whatever is read has an id, and is read again from its own fields. -/
def ReadsNormal {α : Type} (read : Json.Fields → Checked α) (write : α → Json.Fields)
    (id : α → String) : Prop :=
  ∀ fields a, read fields = .ok a → id a ≠ "" ∧ read (write a) = .ok a

theorem writes_map (value : Option String) : Http.writes (value.map .text) value = true := by
  cases value with
  | none => rfl
  | some s => exact beq_self_eq_true s

namespace Domain

variable {fields : Json.Fields} {d : Domain}

theorem ofFields_id (h : ofFields fields = .ok d) :
    fields.get? "id" = some (.text d.id) ∧ d.id ≠ "" := by
  obtain ⟨_, _, howner, -, rfl⟩ := Checked.seq_eq_ok h
  obtain ⟨_, _, hkind, -, rfl⟩ := Checked.seq_eq_ok howner
  obtain ⟨_, _, hname, -, rfl⟩ := Checked.seq_eq_ok hkind
  obtain ⟨_, _, hmake, -, rfl⟩ := Checked.seq_eq_ok hname
  obtain ⟨id, hid, rfl⟩ := Checked.map_eq_ok hmake
  exact Json.Fields.required_nonEmptyText hid

theorem ofFields_toFields (hid : d.id ≠ "") : ofFields d.toFields = .ok d := by
  have hkind : DomainKind.ofJson (.text d.kind.name) = .ok d.kind := by cases d.kind <;> rfl
  have howner := Http.textOrNull_of_writes (writes_map d.owner)
  unfold ofFields
  rw [Json.Fields.required_ok rfl (Json.Fields.nonEmptyText_text hid),
    Json.Fields.required_ok (a := d.name) rfl rfl, Json.Fields.required_ok rfl hkind,
    Json.Fields.optional_ok rfl howner]
  rfl

theorem reads_normal : ReadsNormal ofFields toFields Domain.id := by
  intro fields d h
  obtain ⟨-, hid⟩ := ofFields_id h
  exact ⟨hid, ofFields_toFields hid⟩

end Domain

namespace Route

variable {fields : Json.Fields} {r : Route} {name s : String} {service : Option String}

/-- A segment that was read is the normal form of something, also where it was left out. -/
theorem exists_segment {normal : Option String → String} (hnone : normal none = "")
    (h : fields.optional name "" (segmentOf normal) = .ok s) : ∃ value, s = normal value := by
  rcases Json.Fields.optional_eq_ok h with rfl | ⟨v, -, hread⟩
  · exact ⟨none, hnone.symm⟩
  · cases v with
    | null =>
      cases hread
      exact ⟨none, rfl⟩
    | text t =>
      cases hread
      exact ⟨some t, rfl⟩
    | _ => cases hread

theorem service_ne_empty (h : fields.optional name none serviceOf = .ok service) :
    service ≠ some "" := by
  rintro rfl
  rcases Json.Fields.optional_eq_ok h with hnone | ⟨v, -, hread⟩
  · cases hnone
  · have hfalse := serviceOf_eq_ok hread rfl
    rw [serviceOf, hfalse] at hread
    cases hread

theorem ReadFrom.wellFormed (h : r.ReadFrom fields) : Http.wellFormed .routes r = true := by
  obtain ⟨host, hhost⟩ := exists_segment rfl h.host
  obtain ⟨path, hpath⟩ := exists_segment rfl h.path
  obtain ⟨-, hid⟩ := Json.Fields.required_nonEmptyText h.id
  obtain ⟨-, hdomain⟩ := Json.Fields.required_nonEmptyText h.domainId
  simp only [Http.wellFormed, Bool.and_eq_true, bne_iff_ne, beq_iff_eq]
  refine ⟨⟨⟨⟨hid, hdomain⟩, ?_⟩, ?_⟩, service_ne_empty h.service⟩
  · rw [hhost, normalSegment_idem]
  · rw [hpath, normalPath_idem]

theorem ofFields_toFields (h : Http.wellFormed .routes r = true) : ofFields r.toFields = .ok r := by
  simp only [Http.wellFormed, Bool.and_eq_true, bne_iff_ne, beq_iff_eq] at h
  obtain ⟨⟨⟨⟨hid, hdomain⟩, hhost⟩, hpath⟩, hservice⟩ := h
  have hhostRead : segmentOf normalSegment (.text r.host) = .ok r.host := congrArg Checked.ok hhost
  have hpathRead : segmentOf normalPath (.text r.path) = .ok r.path := congrArg Checked.ok hpath
  have hserviceRead := Http.service_of_writes (writes_map r.serviceInstanceId) hservice
  exact ReadFrom.ofFields_eq
    { id := Json.Fields.required_ok rfl (Json.Fields.nonEmptyText_text hid)
      domainId := Json.Fields.required_ok rfl (Json.Fields.nonEmptyText_text hdomain)
      spaceId := Json.Fields.optional_ok rfl rfl
      host := Json.Fields.optional_ok rfl hhostRead
      path := Json.Fields.optional_ok rfl hpathRead
      service := Json.Fields.optional_ok rfl hserviceRead } rfl

theorem reads_normal : ReadsNormal ofFields toFields Route.id := by
  intro fields r h
  have hread := ofFields_eq_ok h
  exact ⟨(Json.Fields.required_nonEmptyText hread.id).2, ofFields_toFields hread.wellFormed⟩

end Route

theorem ErrorDetails.ofFields_toFields (e : ErrorDetails) : ofFields e.toFields = .ok e := rfl

namespace Job

variable {fields : Json.Fields} {j : Job}

theorem ofFields_id (h : ofFields fields = .ok j) :
    fields.get? "id" = some (.text j.id) ∧ j.id ≠ "" := by
  obtain ⟨_, _, hdetails, -, rfl⟩ := Checked.seq_eq_ok h
  obtain ⟨_, _, hstatus, -, rfl⟩ := Checked.seq_eq_ok hdetails
  obtain ⟨_, _, hmake, -, rfl⟩ := Checked.seq_eq_ok hstatus
  obtain ⟨id, hid, rfl⟩ := Checked.map_eq_ok hmake
  exact Json.Fields.required_nonEmptyText hid

theorem ofFields_toFields (hid : j.id ≠ "") : ofFields j.toFields = .ok j := by
  have hstatus : JobStatus.ofJson (.text j.status.name) = .ok j.status := by cases j.status <;> rfl
  have hdetails : ErrorDetails.ofJsonOrNull ((j.details.map fun e => .object e.toFields).getD .null) =
      .ok j.details := by
    cases j.details with
    | none => rfl
    | some e => exact congrArg (Checked.map some) (ErrorDetails.ofFields_toFields e)
  unfold ofFields
  rw [Json.Fields.required_ok rfl (Json.Fields.nonEmptyText_text hid),
    Json.Fields.required_ok rfl hstatus, Json.Fields.optional_ok rfl hdetails]
  rfl

theorem reads_normal : ReadsNormal ofFields toFields Job.id := by
  intro fields j h
  obtain ⟨-, hid⟩ := ofFields_id h
  exact ⟨hid, ofFields_toFields hid⟩

end Job

namespace Ref

variable {fields : Json.Fields} {r : Ref}

theorem ofFields_eq_ok (h : ofFields fields = .ok r) :
    ∃ id name, fields.get? "id" = some (.text id) ∧ id ≠ "" ∧ r = .of id name := by
  obtain ⟨_, _, hname, -, rfl⟩ := Checked.seq_eq_ok h
  obtain ⟨_, name, hmake, -, rfl⟩ := Checked.seq_eq_ok hname
  obtain ⟨id, hid, rfl⟩ := Checked.map_eq_ok hmake
  obtain ⟨hgiven, hne⟩ := Json.Fields.required_nonEmptyText hid
  exact ⟨id, name, hgiven, hne, rfl⟩

/-- A reference whose id was all blanks is refused when it is read again; any other is not. -/
theorem ofFields_toFields (id name : String) : ofFields (Ref.of id name).toFields =
    if Text.strip id = "" then .faulty [⟨[.field "id"], .emptyText⟩] else .ok (.of id name) := by
  have hstrip (s : String) : Text.strip (Text.strip s) = Text.strip s := normalSegment_idem (some s)
  -- The fields hold what was left of the id, and this is what is looked at for being empty.
  by_cases hid : Text.strip id = ""
  · rw [if_pos hid, Ref.of, hid]
    rfl
  · rw [if_neg hid]
    unfold ofFields
    rw [Json.Fields.required_ok rfl (Json.Fields.nonEmptyText_text hid),
      Json.Fields.optional_ok (a := Text.strip name) rfl rfl]
    change Checked.ok (Ref.mk (Text.strip (Text.strip id)) (Text.strip (Text.strip name))) = _
    rw [hstrip, hstrip]
    rfl

end Ref

/-- The listings of references, whose ids are read without the blanks around them. -/
def Resource.trimsIds : Resource → Bool
  | .organizations | .organizationSpaces | .spaceApplications | .routeApplications => true
  | .organizationPrivateDomains | .sharedDomains | .routes | .spaceRoutes => false

namespace Http

variable {τ : Type} {resource : Resource}

theorem toItem_id {e : Envelope} {x : resource.Item} (h : e.toItem resource = .ok x) :
    e.guid ≠ "" ∧ idOf resource x = if resource.trimsIds then Text.strip e.guid else e.guid := by
  have same {id : String} (h : some (Json.text e.guid) = some (.text id) ∧ id ≠ "") :
      e.guid ≠ "" ∧ id = e.guid := by
    obtain ⟨hguid, hne⟩ := h
    cases hguid
    exact ⟨hne, rfl⟩
  cases resource with
  | organizations | organizationSpaces | spaceApplications | routeApplications =>
    obtain ⟨id, name, hgiven, hne, rfl⟩ := Ref.ofFields_eq_ok h
    obtain ⟨hguid, hid⟩ := same ⟨hgiven, hne⟩
    exact ⟨hguid, congrArg Text.strip hid⟩
  | organizationPrivateDomains | sharedDomains => exact same (Domain.ofFields_id h)
  | routes | spaceRoutes =>
    exact same (Json.Fields.required_nonEmptyText (Route.ofFields_eq_ok h).id)

/-- A thing that is listed has its id from a record of the answer, which gives one. -/
def StemsFrom (answer : Answer τ) (resource : Resource) (x : resource.Item) : Prop :=
  ∃ v records record e, answer.payload = .ok v ∧ (recordsOf v : Parsed τ (List Json)) = .ok records ∧
    record ∈ records ∧ (Envelope.open record : Parsed τ Envelope) = .ok e ∧ e.guid ≠ "" ∧
    idOf resource x = if resource.trimsIds then Text.strip e.guid else e.guid

theorem listed_stems {c c' : Client τ} {filters : Filters} {number : Int} {p : Page resource.Item}
    (h : (Client.listResources resource filters number).run c = (.ok p, c')) {x : resource.Item}
    (hx : x ∈ p.items) : StemsFrom (c.answerAt 0) resource x := by
  rcases Client.listResources_puts resource filters number c with ⟨f, hrun⟩ | ⟨q, -, hrun⟩
  · rw [hrun] at h
    cases h
  · rw [hrun] at h
    obtain ⟨v, hv, hpage⟩ := Parsed.bind_eq_ok (Prod.mk.inj h).1
    obtain ⟨records, hrecords, hitems, -, -⟩ := parsePage_ok hpage
    obtain ⟨record, hrecord, hread⟩ := exists_of_mapM_ok hitems hx
    obtain ⟨e, he, hitem⟩ := Parsed.bind_eq_ok hread
    exact ⟨v, records, record, e, hv, hrecords, hrecord, he, toItem_id (Checked.toExcept_eq_ok hitem)⟩

end Http

/-- Domains, routes and jobs have an id, and are read again from their own fields as they are. So are
references, unless the id that was given is all blanks: these go after the id was found not to be
empty, and what is left has no id and is refused. No listing but those of references may show a
thing without an id, and they only where an answer gives one of blanks. -/
theorem records_normal {τ : Type} :
    ReadsNormal Domain.ofFields Domain.toFields Domain.id ∧
      ReadsNormal Route.ofFields Route.toFields Route.id ∧
      ReadsNormal Job.ofFields Job.toFields Job.id ∧
      (∀ fields r, Ref.ofFields fields = .ok r → ∃ id, fields.get? "id" = some (.text id) ∧ id ≠ "" ∧
        r.id = Text.strip id ∧ Ref.ofFields r.toFields =
          if r.id = "" then .faulty [⟨[.field "id"], .emptyText⟩] else .ok r) ∧
      ∀ (c c' : Http.Client τ) resource filters number p,
        (Http.Client.listResources resource filters number).run c = (.ok p, c') →
          ∀ x ∈ p.items, Http.StemsFrom (c.answerAt 0) resource x := by
  refine ⟨Domain.reads_normal, Route.reads_normal, Job.reads_normal, fun fields r h => ?_,
    fun c c' resource filters number p h x hx => Http.listed_stems h hx⟩
  obtain ⟨id, name, hgiven, hne, rfl⟩ := Ref.ofFields_eq_ok h
  exact ⟨id, hgiven, hne, rfl, Ref.ofFields_toFields id name⟩

/-- A server whose only organization has blanks for an id. -/
def blankGuid : Http.Client Float :=
  .awaiting 200 (
    "\x7b\"total_pages\": 1, \"resources\": [\x7b\"metadata\": \x7b\"guid\": \" \"\x7d, " ++
      "\"entity\": \x7b\"name\": \"dev\"\x7d\x7d]\x7d")

/-- A route is read again with the slash that its path was read with, and an organization with
neither the blanks around its name nor those around its id. -/
theorem records_normal_padded :
    Route.ofFields [("id", .text "route-1"), ("domain_id", .text "domain-1"), ("path", .text " v1")] =
        .ok ⟨"route-1", "domain-1", "", "", "/v1", none⟩ ∧
      Route.ofFields (Route.toFields ⟨"route-1", "domain-1", "", "", "/v1", none⟩) =
        .ok ⟨"route-1", "domain-1", "", "", "/v1", none⟩ ∧
      Ref.ofFields [("id", .text "org-1 "), ("name", .text " dev")] = .ok ⟨"org-1", "dev"⟩ ∧
      Ref.ofFields (Ref.toFields ⟨"org-1", "dev"⟩) = .ok ⟨"org-1", "dev"⟩ := by
  obtain ⟨-, hroute, -, href, -⟩ := records_normal (τ := Float)
  have route : Route.ofFields
      [("id", .text "route-1"), ("domain_id", .text "domain-1"), ("path", .text " v1")] =
        .ok ⟨"route-1", "domain-1", "", "", "/v1", none⟩ := by rfl
  have ref : Ref.ofFields [("id", .text "org-1 "), ("name", .text " dev")] = .ok ⟨"org-1", "dev"⟩ := by
    rfl
  obtain ⟨-, -, -, -, hagain⟩ := href _ _ ref
  exact ⟨route, (hroute _ _ route).2, ref, hagain⟩

/-- An id of blanks passes for one, and the record that is read has none. -/
theorem ref_without_id :
    Ref.ofFields [("id", .text " "), ("name", .text "dev")] = .ok ⟨"", "dev"⟩ ∧
      Ref.ofFields (Ref.toFields ⟨"", "dev"⟩) = .faulty [⟨[.field "id"], .emptyText⟩] ∧
      ((Http.Client.listResources .organizations [] 1).run blankGuid).1.toOption.map Page.items =
        some [⟨"", "dev"⟩] :=
  ⟨rfl, rfl, by decide +kernel⟩

end PlatformRoutes
