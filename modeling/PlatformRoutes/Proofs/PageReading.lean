import PlatformRoutes.Http.Envelope

namespace PlatformRoutes

namespace Checked

variable {α β : Type}

theorem map_eq_ok {f : α → β} {x : Checked α} {b : β} (h : f <$> x = .ok b) :
    ∃ a, x = .ok a ∧ f a = b := by
  cases x with
  | ok a =>
    cases h
    exact ⟨a, rfl, rfl⟩
  | faulty faults => cases h
  | misshapen => cases h

theorem seq_eq_ok {f : Checked (α → β)} {x : Checked α} {b : β} (h : f <*> x = .ok b) :
    ∃ g a, f = .ok g ∧ x = .ok a ∧ g a = b := by
  change apply f x = .ok b at h
  cases f with
  | ok g =>
    cases x with
    | ok a =>
      cases h
      exact ⟨g, a, rfl, rfl, rfl⟩
    | faulty faults => cases h
    | misshapen => cases h
  | faulty faults => cases x <;> cases h
  | misshapen => cases h

theorem under_eq_ok {place : Place} {x : Checked α} {a : α} (h : x.under place = .ok a) :
    x = .ok a := by
  cases x with
  | ok b => exact h
  | faulty faults => cases h
  | misshapen => cases h

theorem andThen_eq_ok {x : Checked α} {f : α → Checked β} {b : β} (h : x.andThen f = .ok b) :
    ∃ a, x = .ok a ∧ f a = .ok b := by
  cases x with
  | ok a => exact ⟨a, rfl, h⟩
  | faulty faults => cases h
  | misshapen => cases h

theorem toExcept_eq_ok {τ : Type} {x : Checked α} {a : α}
    (h : (x.toExcept : Except (Failure τ) α) = .ok a) : x = .ok a := by
  cases x with
  | ok b =>
    cases h
    rfl
  | faulty faults => cases h
  | misshapen => cases h

theorem atLeast_eq_ok {bound n m : Int} (h : atLeast bound n = .ok m) : m = n := by
  unfold atLeast at h
  split at h
  · cases h
  · cases h
    rfl

end Checked

namespace Json.Fields

variable {α : Type} {fields : Fields} {name s : String} {v : Json} {read : Json → Checked α}
  {default a : α}

theorem required_eq_ok (h : fields.required name read = .ok a) :
    ∃ v, fields.get? name = some v ∧ read v = .ok a := by
  unfold required at h
  cases hv : fields.get? name with
  | none =>
    rw [hv] at h
    cases h
  | some v =>
    rw [hv] at h
    exact ⟨v, rfl, Checked.under_eq_ok h⟩

theorem optional_eq_ok (h : fields.optional name default read = .ok a) :
    a = default ∨ ∃ v, fields.get? name = some v ∧ read v = .ok a := by
  unfold optional at h
  cases hv : fields.get? name with
  | none =>
    rw [hv] at h
    cases h
    exact .inl rfl
  | some v =>
    rw [hv] at h
    exact .inr ⟨v, rfl, Checked.under_eq_ok h⟩

theorem nonEmptyText_eq_ok (h : nonEmptyText v = .ok s) : v = .text s ∧ s ≠ "" := by
  obtain ⟨t, htext, hnonempty⟩ := Checked.andThen_eq_ok h
  unfold Checked.nonEmpty at hnonempty
  split at hnonempty
  · cases hnonempty
  · rename_i hne
    cases hnonempty
    cases v with
    | text u =>
      cases htext
      exact ⟨rfl, by simpa using hne⟩
    | _ => cases htext

/-- What is read of a text that may not be empty is the text, as it is. -/
theorem required_nonEmptyText (h : fields.required name nonEmptyText = .ok s) :
    fields.get? name = some (.text s) ∧ s ≠ "" := by
  obtain ⟨v, hv, hread⟩ := required_eq_ok h
  obtain ⟨rfl, hne⟩ := nonEmptyText_eq_ok hread
  exact ⟨hv, hne⟩

end Json.Fields

/-- A page bears the number it was asked for by, and its items and its total as they were read. -/
theorem Page.of_eq_ok {α : Type} {items : List α} {number total : Int} {p : Page α}
    (h : Page.of items number total = .ok p) : p = ⟨items, number, total⟩ := by
  obtain ⟨make, total', hmake, htotal, rfl⟩ := Checked.seq_eq_ok h
  obtain ⟨number', hnumber, rfl⟩ := Checked.map_eq_ok hmake
  rw [Checked.atLeast_eq_ok (Checked.under_eq_ok hnumber),
    Checked.atLeast_eq_ok (Checked.under_eq_ok htotal)]

/-- Every part of a route is read off a field of its own. -/
structure Route.ReadFrom (r : Route) (fields : Json.Fields) : Prop where
  id : fields.required "id" Json.Fields.nonEmptyText = .ok r.id
  domainId : fields.required "domain_id" Json.Fields.nonEmptyText = .ok r.domainId
  spaceId : fields.optional "space_id" "" Json.Fields.text = .ok r.spaceId
  host : fields.optional "host" "" (segmentOf normalSegment) = .ok r.host
  path : fields.optional "path" "" (segmentOf normalPath) = .ok r.path
  service : fields.optional "service_instance_id" none serviceOf = .ok r.serviceInstanceId

theorem Route.ofFields_eq_ok {fields : Json.Fields} {r : Route} (h : ofFields fields = .ok r) :
    r.ReadFrom fields := by
  obtain ⟨_, _, hservice, -, rfl⟩ := Checked.seq_eq_ok h
  obtain ⟨_, _, hpath, service, rfl⟩ := Checked.seq_eq_ok hservice
  obtain ⟨_, _, hhost, path, rfl⟩ := Checked.seq_eq_ok hpath
  obtain ⟨_, _, hspace, host, rfl⟩ := Checked.seq_eq_ok hhost
  obtain ⟨_, _, hdomain, spaceId, rfl⟩ := Checked.seq_eq_ok hspace
  obtain ⟨_, _, hmake, domainId, rfl⟩ := Checked.seq_eq_ok hdomain
  obtain ⟨_, id, rfl⟩ := Checked.map_eq_ok hmake
  exact ⟨id, domainId, spaceId, host, path, service⟩

theorem Route.ReadFrom.ofFields_eq {fields : Json.Fields} {r : Route} (h : r.ReadFrom fields)
    (known : fields.noOthers
      ["id", "domain_id", "space_id", "host", "path", "service_instance_id"] = .ok ()) :
    ofFields fields = .ok r := by
  unfold ofFields
  rw [h.id, h.domainId, h.spaceId, h.host, h.path, h.service, known]
  rfl

/-- No value of a service instance's field is read as none but those that count as absent. -/
theorem Route.serviceOf_eq_ok {v : Json} {service : Option String} (h : serviceOf v = .ok service)
    (hnone : (service.getD "").isEmpty = true) : v.isTruthy = false := by
  cases htruthy : v.isTruthy with
  | false => rfl
  | true =>
    rw [serviceOf, if_pos htruthy] at h
    cases v with
    | text s =>
      cases h
      have hempty : s.isEmpty = true := hnone
      rw [Json.isTruthy, hempty] at htruthy
      cases htruthy
    | _ => cases h

namespace Http

variable {τ : Type}

/-- An outcome that was read in two steps. -/
theorem Parsed.bind_eq_ok {α β : Type} {x : Parsed τ α} {f : α → Parsed τ β} {b : β}
    (h : x >>= f = .ok b) : ∃ a, x = .ok a ∧ f a = .ok b := by
  cases x with
  | ok a => exact ⟨a, rfl, h⟩
  | error e => cases h

/-- Whatever was read of a list was read off a record of it. -/
theorem exists_of_mapM_ok {α β : Type} {f : α → Parsed τ β} {l : List α} {bs : List β} {b : β}
    (h : l.mapM f = .ok bs) (hb : b ∈ bs) : ∃ a ∈ l, f a = .ok b := by
  induction l generalizing bs with
  | nil =>
    cases h
    cases hb
  | cons a l ih =>
    rw [List.mapM_cons] at h
    obtain ⟨first, hfirst, h⟩ := Parsed.bind_eq_ok h
    obtain ⟨rest, hrest, h⟩ := Parsed.bind_eq_ok h
    cases h
    rcases List.mem_cons.mp hb with rfl | hmem
    · exact ⟨a, List.mem_cons_self, hfirst⟩
    · obtain ⟨a', ha', hf⟩ := ih hrest hmem
      exact ⟨a', List.mem_cons_of_mem a ha', hf⟩

/-- The records that an answer lists; one that names no resources lists none. -/
def recordsOf (v : Json) : Parsed τ (List Json) := do
  let fields ← fieldsOf v
  match fields.get? "resources" with
  | none => return []
  | some v => itemsOf v

/-- How many pages a listing has by an answer that shows one of them. -/
def reportedPages (v : Json) : Parsed τ Int := do
  let fields ← fieldsOf v
  wholeOrZero (fields.get? "total_pages")

/-- A page is what its records are read as. -/
theorem parsePage_ok {resource : Resource} {number : Int} {v : Json} {p : Page resource.Item}
    (h : (parsePage resource number v : Parsed τ (Page resource.Item)) = .ok p) :
    ∃ records, (recordsOf v : Parsed τ (List Json)) = .ok records ∧
      (records.mapM (parseItem resource) : Parsed τ (List resource.Item)) = .ok p.items ∧
      (reportedPages v : Parsed τ Int) = .ok p.totalPages ∧ p.page = number := by
  obtain ⟨fields, hfields, h⟩ := Parsed.bind_eq_ok h
  have hread (records : List Json)
      (h : (do
        let items ← records.mapM (parseItem resource)
        let total ← wholeOrZero (fields.get? "total_pages")
        (Page.of items number total).toExcept : Parsed τ (Page resource.Item)) = .ok p) :
      (records.mapM (parseItem resource) : Parsed τ (List resource.Item)) = .ok p.items ∧
        (wholeOrZero (fields.get? "total_pages") : Parsed τ Int) = .ok p.totalPages ∧
        p.page = number := by
    obtain ⟨items, hitems, h⟩ := Parsed.bind_eq_ok h
    obtain ⟨total, htotal, h⟩ := Parsed.bind_eq_ok h
    obtain rfl := Page.of_eq_ok (Checked.toExcept_eq_ok h)
    exact ⟨hitems, htotal, rfl⟩
  unfold recordsOf reportedPages
  rw [hfields]
  change ∃ records, (match fields.get? "resources" with
      | none => .ok []
      | some v => itemsOf v : Parsed τ (List Json)) = _ ∧ _ ∧
    (wholeOrZero (fields.get? "total_pages") : Parsed τ Int) = _ ∧ _
  cases hresources : fields.get? "resources" with
  | none =>
    rw [hresources] at h
    exact ⟨[], rfl, hread [] h⟩
  | some v =>
    rw [hresources] at h
    obtain ⟨records, hrecords, h⟩ := Parsed.bind_eq_ok h
    exact ⟨records, hrecords, hread records h⟩

/-- What is read as a route is a record under the route's id. It names an instance exactly if the
route serves one. -/
theorem parseItem_route {record : Json} {r : Route}
    (h : (parseItem .spaceRoutes record : Parsed τ Route) = .ok r) :
    ∃ e, (Envelope.open record : Parsed τ Envelope) = .ok e ∧ e.guid = r.id ∧
      ((r.serviceInstanceId.getD "").isEmpty = true →
        present (e.entity.get? "service_instance_guid") = none) := by
  obtain ⟨e, he, h⟩ := Parsed.bind_eq_ok h
  refine ⟨e, he, ?_⟩
  have h : e.toRoute = .ok r := Checked.toExcept_eq_ok h
  obtain ⟨hid, -, -, -, -, hservice⟩ := Route.ofFields_eq_ok h
  refine ⟨?_, fun hnone => ?_⟩
  · obtain ⟨hguid, -⟩ := Json.Fields.required_nonEmptyText hid
    exact Json.text.inj (Option.some.inj hguid)
  · have hfalse := Route.serviceOf_eq_ok (Checked.under_eq_ok hservice) hnone
    unfold Envelope.field at hfalse
    cases hvalue : e.entity.get? "service_instance_guid" with
    | none => rfl
    | some v =>
      rw [hvalue] at hfalse
      exact Option.filter_eq_none_iff.mpr fun _ h => by
        cases h
        simpa using hfalse

end Http

end PlatformRoutes
