import PlatformRoutes.Proofs.JsonReading
import PlatformRoutes.Report

namespace PlatformRoutes.Report

theorem wordy_entry (r : RouteRecord) : (entry r).Wordy := by
  refine .object _ (by simp) fun f hf => ?_
  simp only [List.mem_cons, List.not_mem_nil, or_false] at hf
  rcases hf with rfl | rfl | rfl | rfl | rfl | rfl | rfl
  · exact .text r.id
  · exact .text r.host
  · exact .text r.domain
  · exact .text r.path
  · exact .text r.space
  · refine .list _ fun v hv => ?_
    obtain ⟨name, -, rfl⟩ := List.mem_map.mp hv
    exact .text name
  · cases r.serviceInstanceId with
    | none => exact .null
    | some s => exact .text s

theorem wordy_document (records : List RouteRecord) : (document records).Wordy := by
  refine .object _ (by simp) fun f hf => ?_
  rw [List.mem_singleton.mp hf]
  refine .list _ fun v hv => ?_
  obtain ⟨r, -, rfl⟩ := List.mem_map.mp hv
  exact wordy_entry r

theorem read_json (records : List RouteRecord) :
    Json.read (json records).toList = .ok (document records) := by
  rw [json, String.toList_ofList]
  exact (wordy_document records).read_pretty 0

theorem isAscii_json (records : List RouteRecord) : Text.isAscii (json records) = true := by
  rw [Text.isAscii, List.all_eq_true, json, String.toList_ofList]
  intro c hc
  exact decide_eq_true ((wordy_document records).isAscii_pretty 0 c hc)

/-- Nothing of a record is lost in its entry. -/
theorem entry_injective : Function.Injective entry := by
  rintro ⟨id, host, path, domain, space, applications, service⟩
    ⟨id', host', path', domain', space', applications', service'⟩ h
  simp only [entry, Json.object.injEq, List.cons.injEq, Prod.mk.injEq, Json.text.injEq,
    Json.list.injEq, true_and, and_true] at h
  obtain ⟨rfl, rfl, rfl, rfl, rfl, happlications, hservice⟩ := h
  obtain rfl : applications = applications' :=
    List.map_injective_iff.mpr (fun _ _ => Json.text.inj) happlications
  have hsame : service = service' := by cases service <;> cases service' <;> simp_all
  rw [hsame]

theorem document_injective : Function.Injective document := by
  intro records others h
  simp only [document, Json.object.injEq, List.cons.injEq, Prod.mk.injEq, Json.list.injEq, true_and,
    and_true] at h
  exact List.map_injective_iff.mpr entry_injective h

/-- The JSON report is in ASCII and reads back as an object with nothing but the routes, one object
for each record in their order, with all that the record holds. Different records have different
reports. -/
theorem json_lossless (records : List RouteRecord) :
    Text.isAscii (json records) = true ∧
      Json.read (json records).toList = .ok (.object [("routes", .list (records.map fun r =>
        .object [("id", .text r.id), ("host", .text r.host), ("domain", .text r.domain),
          ("path", .text r.path), ("space", .text r.space),
          ("applications", .list (r.applications.map .text)),
          ("service_instance_id",
            match r.serviceInstanceId with
            | some s => .text s
            | none => .null)]))]) ∧
      ∀ others, json others = json records → others = records := by
  have hentries : records.map entry = records.map fun r =>
      .object [("id", .text r.id), ("host", .text r.host), ("domain", .text r.domain),
        ("path", .text r.path), ("space", .text r.space),
        ("applications", .list (r.applications.map .text)),
        ("service_instance_id",
          match r.serviceInstanceId with
          | some s => .text s
          | none => .null)] := by
    refine List.map_congr_left fun r _ => ?_
    rw [entry]
    cases r.serviceInstanceId <;> rfl
  refine ⟨isAscii_json records, ?_, fun others h => ?_⟩
  · rw [read_json, document, hentries]
  · have hread := read_json others
    rw [h, read_json] at hread
    exact (document_injective (Except.ok.inj hread)).symm

/-- Quotes, a backslash, control characters, a character of two units, and a text that spells its
escapes. -/
def crooked : RouteRecord :=
  ⟨"route-\"1\"", "a\\n", "/\u0001\t", "\u007f", "\n", ["😀", "\\ud83d\\ude00"], none⟩

theorem json_lossless_crooked :
    Text.isAscii (json [crooked]) = true ∧
      json [crooked] ≠ json [{ crooked with applications := ["😀", "😀"] }] := by
  obtain ⟨hascii, -, hinjective⟩ := json_lossless [crooked]
  exact ⟨hascii, fun h => absurd (hinjective _ h.symm) (by decide)⟩

end PlatformRoutes.Report
