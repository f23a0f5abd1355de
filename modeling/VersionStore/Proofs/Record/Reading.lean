import VersionStore.Proofs.Json.Layout
import VersionStore.Proofs.Record

/-! Which documents are records.

`Written` says how a document holds a record: as an object with a member for each field, or
as an array that lists the fields in their positional order. A document is read as a record
exactly if it holds that record and the identifier is that of the path
(`decode_eq_ok_iff`); any other is reported as corrupt (`decode_cases`). What an object
holds beside the fields is lost, and nothing else (`Written.document_eq`). -/
namespace VersionStore.Record

/-- Whether a document holds a record. Other members of an object do not matter. -/
inductive Written (r : Record) : Json.Value → Prop
  | members {members : Table Json.Value}
    (identifier : members.get? "id" = some (.string r.identifier.text))
    (kind : members.get? "kind" = some (.string r.kind))
    (path : members.get? "path" = some (.string r.path))
    (payload : members.get? "payload" = some (.string r.payload))
    (classification : members.get? "doc_type" = some (.string r.classification))
    (timestamp : members.get? "timestamp" = some (.integer r.timestamp.toInt)) :
    Written r (.object members)
  | items :
    Written r (.array [.string r.identifier.text, .string r.kind, .string r.path,
      .string r.payload, .string r.classification, .integer r.timestamp.toInt])

variable {r : Record} {members : Table Json.Value}

/-! ### The fields of an object -/

theorem collect_eq_ok_iff :
    layout.fields.collect members =
        .ok (r.identifier.text, r.kind, r.path, r.payload, r.classification, r.timestamp) ↔
      Written r (.object members) := by
  have hstring (name s : String) : Json.Fields.pick ⟨name, Json.Value.asString, none⟩ members =
      .ok s ↔ members.get? name = some (.string s) := by
    simp [Json.Fields.pick_eq_ok_iff, Json.Value.asString_eq_ok_iff]
  have hsigned (name : String) (n : Int64) :
      Json.Fields.pick ⟨name, Json.Value.asSigned, none⟩ members = .ok n ↔
        members.get? name = some (.integer n.toInt) := by
    simp [Json.Fields.pick_eq_ok_iff, Json.Value.asSigned_eq_ok_iff]
  simp only [layout, Json.Fields.collect_cons_eq_ok_iff, hstring]
  constructor
  · rintro ⟨hid, hkind, hpath, hpayload, hclassification, htimestamp⟩
    exact .members hid hkind hpath hpayload hclassification ((hsigned _ _).mp htimestamp)
  · rintro ⟨hid, hkind, hpath, hpayload, hclassification, htimestamp⟩
    exact ⟨hid, hkind, hpath, hpayload, hclassification, (hsigned _ _).mpr htimestamp⟩

/-- The members of the document of a record stand in key order. -/
theorem isTidy_document (r : Record) : r.document.IsTidy := by
  have hkeys : List.Pairwise (· < ·) ["doc_type", "id", "kind", "path", "payload", "timestamp"] := by
    decide
  exact List.pairwise_map.mp hkeys

/-- The document of a record that an object holds is that object, less its other members. -/
theorem Written.document_eq (h : Written r (.object members)) (hsorted : Table.Sorted members) :
    r.document = .object (members.filter fun member => layout.fields.names.contains member.1) := by
  refine congrArg Json.Value.object
    (Table.eq_of_get? r.isTidy_document (Table.sorted_filter _ hsorted) fun key => ?_)
  obtain ⟨hid, hkind, hpath, hpayload, hclassification, htimestamp⟩ := h
  rw [Table.get?_filter (layout.fields.names.contains ·)]
  by_cases hname : key ∈ layout.fields.names
  · have hcases : key = "id" ∨ key = "kind" ∨ key = "path" ∨ key = "payload" ∨ key = "doc_type" ∨
        key = "timestamp" := by
      simpa [layout, Json.Fields.names] using hname
    rw [if_pos (List.contains_iff_mem.mpr hname)]
    rcases hcases with rfl | rfl | rfl | rfl | rfl | rfl
    · rw [hid]; rfl
    · rw [hkind]; rfl
    · rw [hpath]; rfl
    · rw [hpayload]; rfl
    · rw [hclassification]; rfl
    · rw [htimestamp]; rfl
  · rw [if_neg (mt List.contains_iff_mem.mp hname)]
    simp only [layout, Json.Fields.names, List.mem_cons, not_or] at hname
    simp [Table.get?, hname]

/-! ### The items of an array -/

theorem ofItems_eq_ok_iff {shape : String} {items : List Json.Value} :
    layout.fields.ofItems shape 0 items =
        .ok ((r.identifier.text, r.kind, r.path, r.payload, r.classification, r.timestamp), []) ↔
      Written r (.array items) := by
  simp only [layout, Json.Fields.ofItems_cons_eq_ok_iff, Json.Fields.ofItems_one_eq_ok_iff,
    Json.Value.asString_eq_ok_iff, Json.Value.asSigned_eq_ok_iff]
  constructor
  · rintro ⟨_, _, rfl, rfl, _, _, rfl, rfl, _, _, rfl, rfl, _, _, rfl, rfl, _, _, rfl, rfl, _,
      rfl, rfl⟩
    exact .items
  · rintro ⟨⟩
    exact ⟨_, _, rfl, rfl, _, _, rfl, rfl, _, _, rfl, rfl, _, _, rfl, rfl, _, _, rfl, rfl, _,
      rfl, rfl⟩

/-! ### Documents -/

theorem ofValue_eq_ok_iff {d : Json.Value} (htidy : d.IsTidy) : ofValue d = .ok r ↔ Written r d := by
  have hread : ofValue d = .ok r ↔ layout.read false d =
      .ok (r.identifier.text, r.kind, r.path, r.payload, r.classification, r.timestamp) := by
    unfold ofValue
    cases layout.read false d with
    | error e => exact ⟨nofun, nofun⟩
    | ok fields =>
      obtain ⟨id, kind, path, payload, classification, timestamp⟩ := fields
      obtain ⟨⟨text⟩, _, _, _, _, _⟩ := r
      simp [Except.map]
  rw [hread]
  cases d with
  | object members => exact (Json.Layout.read_object_iff rfl htidy).trans collect_eq_ok_iff
  | array items => exact Json.Layout.read_array_iff.trans ofItems_eq_ok_iff
  | null | boolean | number | string => exact ⟨nofun, nofun⟩

theorem decode_eq_ok_iff {d : Json.Value} (htidy : d.IsTidy) :
    decode d = .ok r ↔ Written r d ∧ r.IsGenuine := by
  rw [← ofValue_eq_ok_iff htidy]
  unfold decode
  cases ofValue d with
  | error e => exact ⟨nofun, nofun⟩
  | ok found =>
    dsimp only
    split
    · next hgenuine =>
      refine ⟨fun h => ?_, fun h => ?_⟩
      · cases h
        exact ⟨rfl, hgenuine⟩
      · cases h.1
        rfl
    · next hforeign =>
      refine ⟨nofun, ?_⟩
      rintro ⟨⟨⟩, hgenuine⟩
      exact absurd hgenuine hforeign

/-- A document is a record, or it is reported as corrupt. -/
theorem decode_cases (d : Json.Value) :
    (∃ r, decode d = .ok r ∧ r.IsGenuine) ∨
      ∃ reason, decode d = .error (.storage (.corrupt (nameOf d) reason)) := by
  unfold decode
  cases ofValue d with
  | error e => exact .inr ⟨_, rfl⟩
  | ok r =>
    dsimp only
    split
    · next hgenuine => exact .inl ⟨r, rfl, hgenuine⟩
    · exact .inr ⟨_, rfl⟩

theorem isGenuine_of_decode {d : Json.Value} (h : decode d = .ok r) : r.IsGenuine := by
  rcases decode_cases d with ⟨found, hfound, hgenuine⟩ | ⟨reason, hcorrupt⟩
  · obtain rfl := Except.ok.inj (h.symm.trans hfound)
    exact hgenuine
  · cases h.symm.trans hcorrupt

end VersionStore.Record
