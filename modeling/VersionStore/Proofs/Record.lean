import VersionStore.Proofs.StableSort
import VersionStore.Store

/-! Records as documents.

A record whose identifier is that of its path is read back from its document unchanged
(`decode_document`). The filters and the sort of the store's queries read its fields:
which of the documents of some records a query selects, and in which order, is a matter
of the records (`select_newest`, `select_version`). -/
namespace VersionStore

namespace Record

/-- Whether the identifier of a record is that of its path. -/
def IsGenuine (r : Record) : Prop := r.identifier = Identifier.derive r.path

theorem isGenuine_make (classification path kind payload : String) (stamp : Int64) :
    (make classification path kind payload stamp).IsGenuine := rfl

theorem ofValue_document (r : Record) : ofValue r.document = .ok r := by
  have htimestamp : (Json.Value.integer r.timestamp.toInt).asSigned = .ok r.timestamp := by
    simp [Json.Value.integer, Json.Value.asSigned, Word.isSigned_toInt]
  unfold ofValue document layout Json.Layout.read Json.Fields.ofMembers
  simp [Json.Fields.check, Json.Fields.collect, Json.Fields.pick, Table.get?,
    Json.Value.asString, htimestamp, bind, Except.bind, pure, Except.pure, Except.map]

theorem decode_document {r : Record} (h : r.IsGenuine) : decode r.document = .ok r := by
  unfold decode
  rw [ofValue_document]
  exact if_pos h

/-! ### The fields of a document -/

@[simp] theorem member?_id (r : Record) :
    r.document.member? "id" = some (.string r.identifier.text) := rfl

@[simp] theorem member?_classification (r : Record) :
    r.document.member? "doc_type" = some (.string r.classification) := rfl

@[simp] theorem member?_timestamp (r : Record) :
    r.document.member? "timestamp" = some (.integer r.timestamp.toInt) := rfl

end Record

theorem decodeAll_documents {records : List Record} (h : ∀ r ∈ records, r.IsGenuine) :
    decodeAll (records.map Record.document) = .ok records := by
  induction records with
  | nil => rfl
  | cons r rest ih =>
    have hr := Record.decode_document (h r List.mem_cons_self)
    have hrest := ih fun s hs => h s (List.mem_cons_of_mem _ hs)
    unfold decodeAll at hrest ⊢
    rw [List.map_cons, List.mapM_cons, hr, hrest]
    rfl

/-! ### The tests of the store's queries -/

namespace Filter

variable (r : Record)

theorem accepts_id (identifier : Identifier) :
    (term "id" (.string identifier.text)).accepts r.document =
      decide (r.identifier = identifier) := by
  obtain ⟨text⟩ := identifier
  simp only [accepts, Record.member?_id, Json.Value.agrees]
  rw [Bool.eq_iff_iff, beq_iff_eq, decide_eq_true_eq]
  constructor
  · intro h
    rw [← h]
  · intro h
    rw [h]

theorem accepts_start (text : String) :
    (start "id" text).accepts r.document = r.identifier.startsWith text := by
  simp [accepts, Json.Value.string?, Identifier.startsWith]

theorem accepts_classification (classification : String) :
    (term "doc_type" (.string classification)).accepts r.document =
      decide (r.classification = classification) := by
  simp only [accepts, Record.member?_classification, Json.Value.agrees]
  rw [Bool.eq_iff_iff, beq_iff_eq, decide_eq_true_eq]

theorem accepts_timestamp (timestamp : Int64) :
    (term "timestamp" (.integer timestamp.toInt)).accepts r.document =
      decide (r.timestamp = timestamp) := by
  simp only [accepts, Record.member?_timestamp, Json.Value.integer, Json.Value.agrees,
    Json.Number.agrees]
  rw [Bool.eq_iff_iff, beq_iff_eq, decide_eq_true_eq, Int64.toInt_inj]

theorem accepts_newest (test : Filter) (classification : String) (limit : UInt64) :
    (Query.newest test classification limit).filter.accepts r.document =
      (test.accepts r.document && decide (r.classification = classification)) := by
  simp [Query.newest, accepts, acceptsAll, ← accepts_classification]

theorem accepts_version (identifier : Identifier) (classification : String) (timestamp : Int64) :
    (Query.version identifier classification timestamp).filter.accepts r.document =
      (decide (r.identifier = identifier) && decide (r.classification = classification) &&
        decide (r.timestamp = timestamp)) := by
  simp [Query.version, accepts, acceptsAll, ← accepts_id, ← accepts_classification,
    ← accepts_timestamp, Bool.and_assoc]

end Filter

/-- Filtering the documents of some records is filtering the records. -/
theorem Filter.filter_documents {filter : Filter} {test : Record → Bool}
    (h : ∀ r : Record, filter.accepts r.document = test r) (records : List Record) :
    (records.map Record.document).filter (Filter.accepts · filter) =
      (records.filter test).map Record.document := by
  rw [List.filter_map]
  congr 2
  funext r
  exact h r

/-! ### What the store's queries select -/

namespace Query

/-- Newest first; equal timestamps are not told apart. -/
def compareNewest (r s : Record) : Ordering := Ord.compare s.timestamp.toInt r.timestamp.toInt

theorem isLE_compareNewest (r s : Record) :
    (compareNewest r s).isLE = decide (s.timestamp ≤ r.timestamp) := by
  rw [Bool.eq_iff_iff, decide_eq_true_eq, Int64.le_iff_toInt_le]
  exact Int.isLE_compare

theorem orderedOn_compareNewest (records : List Record) : OrderedOn compareNewest records where
  swap := fun r _ s _ => by
    unfold compareNewest
    exact Int.compare_swap _ _ |>.symm
  trans := fun r _ s _ u _ hrs hsu => by
    unfold compareNewest at *
    rw [Int.isLE_compare] at *
    omega

theorem compare_newest (test : Filter) (classification : String) (limit : UInt64)
    (r s : Record) :
    (newest test classification limit).compare r.document s.document = compareNewest r s := by
  simp [compare, newest, compareBy, SortKey.compare, compareNewest, Json.Value.integer,
    Json.Value.compare, Json.Number.compare, Json.Number.signed?, Word.isSigned_toInt,
    Int.compare_swap]

/-- A query for the newest versions selects among records as it selects among documents. -/
theorem select_newest (test : Filter) (classification : String) (limit : UInt64)
    (records : List Record) :
    (newest test classification limit).select (records.map Record.document) =
      (((records.filter fun r => test.accepts r.document &&
        decide (r.classification = classification)).mergeSort fun r s =>
          decide (s.timestamp ≤ r.timestamp)).take limit.toNat).map Record.document := by
  unfold select
  rw [Filter.filter_documents (Filter.accepts_newest · test classification limit), stableSort_map]
  simp only [compare_newest]
  rw [stableSort_eq_mergeSort orderedOn_compareNewest, List.map_take]
  simp only [isLE_compareNewest]
  rfl

/-- A query for the newest version selects what comes first, newest first. -/
theorem select_newest_one (test : Filter) (classification : String) (records : List Record) :
    (newest test classification 1).select (records.map Record.document) =
      ((stableSort compareNewest (records.filter fun r => test.accepts r.document &&
        decide (r.classification = classification))).head?).toList.map Record.document := by
  rw [select_newest, stableSort_eq_mergeSort orderedOn_compareNewest]
  simp only [isLE_compareNewest]
  rw [← List.take_one]
  rfl

/-- A query for one version selects the first record with its timestamp. -/
theorem select_version (identifier : Identifier) (classification : String) (timestamp : Int64)
    (records : List Record) :
    (version identifier classification timestamp).select (records.map Record.document) =
      ((records.find? fun r => decide (r.identifier = identifier) &&
        decide (r.classification = classification) &&
          decide (r.timestamp = timestamp)).toList).map Record.document := by
  have hcompare : (version identifier classification timestamp).compare = fun _ _ => .eq := rfl
  have hlimit : (version identifier classification timestamp).limit.toNat = 1 := rfl
  rw [select, hcompare, hlimit, stableSort_of_eq,
    Filter.filter_documents (Filter.accepts_version · identifier classification timestamp),
    ← List.map_take, List.take_one, List.head?_filter]

end Query

end VersionStore
