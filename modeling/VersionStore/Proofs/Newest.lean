import VersionStore.Proofs.Engine
import VersionStore.Proofs.Json.Fields
import VersionStore.Store.Sequential

/-! The newest version among documents of any kind.

An index may hold objects that are no records, or that are records but for their time. A
read of the newest version sorts all objects that bear its identifier and classification,
looks at the first, and fails if that is no record. As long as the times of these objects
can be put in order at all, the first is the newest record or the read fails
(`newest_of_ordered`). They can if each has no time or one that a record can have
(`orderedOn_newest`).

Otherwise a version may go unseen: a time that is a text is not told apart from any other,
and an object that bears it separates what is older from what is newer
(`newest_hidden_by_text`). -/
namespace VersionStore

def Json.Value.isObject : Json.Value → Bool
  | .object _ => true
  | _ => false

namespace Record

/-- Whether a document has the members that tell a record from others and from its versions. -/
structure Shows (d : Json.Value) (r : Record) : Prop where
  id : d.member? "id" = some (.string r.identifier.text)
  classification : d.member? "doc_type" = some (.string r.classification)
  timestamp : d.member? "timestamp" = some (.integer r.timestamp.toInt)

/-- An object that is read as a record has its members. -/
theorem shows_of_ofValue {d : Json.Value} {r : Record} (hobject : d.isObject = true)
    (h : ofValue d = .ok r) : Shows d r := by
  cases d with
  | object members =>
    unfold ofValue at h
    cases hread : layout.read false (.object members) with
    | error e => rw [hread] at h; cases h
    | ok fields =>
      rw [hread] at h
      obtain ⟨id, kind, path, payload, classification, timestamp⟩ := fields
      cases h
      have hcollect := Json.Fields.collect_of_ofMembers hread
      obtain ⟨hid, hcollect⟩ := Json.Fields.of_collect_cons hcollect
      obtain ⟨-, hcollect⟩ := Json.Fields.of_collect_cons hcollect
      obtain ⟨-, hcollect⟩ := Json.Fields.of_collect_cons hcollect
      obtain ⟨-, hcollect⟩ := Json.Fields.of_collect_cons hcollect
      obtain ⟨hclassification, htimestamp⟩ := Json.Fields.of_collect_cons hcollect
      obtain ⟨value, hid, hvalue⟩ := Json.Fields.of_pick hid
      cases Json.Value.of_asString hvalue
      obtain ⟨value, hclassification, hvalue⟩ := Json.Fields.of_pick hclassification
      cases Json.Value.of_asString hvalue
      obtain ⟨value, htimestamp, hvalue⟩ := Json.Fields.of_pick htimestamp
      cases Json.Value.of_asSigned hvalue
      exact ⟨hid, hclassification, htimestamp⟩
  | _ => cases hobject

theorem shows_of_decode {d : Json.Value} {r : Record} (hobject : d.isObject = true)
    (h : decode d = .ok r) : Shows d r := by
  unfold decode at h
  split at h
  · cases h
  · next hvalue =>
    split at h
    · cases h
      exact shows_of_ofValue hobject hvalue
    · cases h

end Record

namespace Query

variable {d e : Json.Value} {r s : Record}

/-- The query for a path takes a document for the record that it shows. -/
theorem accepts_latest (h : r.Shows d) (identifier : Identifier) (classification : String) :
    (latest identifier classification).filter.accepts d =
      (decide (r.identifier = identifier) && decide (r.classification = classification)) := by
  rw [← Filter.accepts_id, latest, ← Filter.accepts_newest _ _ _ 1]
  simp [newest, Filter.accepts, Filter.acceptsAll, h.id, h.classification]

/-- The order of the newest version looks at the times only. -/
theorem compare_newest_of_shows (hd : r.Shows d) (he : s.Shows e) (test : Filter)
    (classification : String) (limit : UInt64) :
    (newest test classification limit).compare d e = compareNewest r s := by
  rw [← compare_newest test classification limit]
  simp [compare, newest, compareBy, SortKey.compare, hd.timestamp, he.timestamp]

theorem compare_latest (hd : r.Shows d) (he : s.Shows e) (identifier : Identifier)
    (classification : String) :
    (latest identifier classification).compare d e = compareNewest r s :=
  compare_newest_of_shows hd he _ _ _

/-- How late a document comes in the order of the newest version: the later its time the
earlier, and last if it has none. -/
def lateness (d : Json.Value) : Int :=
  match d.member? "timestamp" with
  | some (.number (.integer n)) => -n
  | _ => 0x8000000000000001

/-- Documents are in order if each has no time or one that a record can have. -/
theorem orderedOn_newest {documents : List Json.Value} (identifier : Identifier)
    (classification : String)
    (h : ∀ d ∈ documents, d.member? "timestamp" = none ∨
      ∃ time : Int64, d.member? "timestamp" = some (.integer time.toInt)) :
    OrderedOn (latest identifier classification).compare documents := by
  have hlast (n : Int64) : -n.toInt < 0x8000000000000001 := by
    have := n.le_toInt
    omega
  have hrank (m n : Int) : (Ord.compare m n).swap = Ord.compare (-m) (-n) := by
    rcases Int.lt_trichotomy m n with hlt | rfl | hlt
    · rw [Int.compare_eq_lt.mpr hlt, Int.compare_eq_gt.mpr (by omega)]
      rfl
    · simp
    · rw [Int.compare_eq_gt.mpr hlt, Int.compare_eq_lt.mpr (by omega)]
      rfl
  refine .of_rank lateness fun a ha b hb => ?_
  have hcompare : (latest identifier classification).compare a b =
      SortKey.compare ⟨"timestamp", .descending⟩ a b := Ordering.then_eq ..
  rw [hcompare]
  unfold SortKey.compare
  rcases h a ha with ha | ⟨m, ha⟩ <;> rcases h b hb with hb | ⟨n, hb⟩ <;>
    simp only [lateness, ha, hb, Json.Value.integer]
  · exact (Int.compare_eq_eq.mpr rfl).symm
  · exact (Int.compare_eq_gt.mpr (hlast n)).symm
  · exact (Int.compare_eq_lt.mpr (hlast m)).symm
  · rw [← hrank]
    simp [Json.Value.compare, Json.Number.compare, Json.Number.signed?, Word.isSigned_toInt]

end Query

/-- Whether a record is a version of a path that some document holds. -/
def IsVersion (documents : List Json.Value) (classification path : String) (r : Record) : Prop :=
  (∃ d ∈ documents, Record.decode d = .ok r) ∧ r.identifier = .derive path ∧
    r.classification = classification

/-- The versions of a path are what can be read of the documents that a read of it asks for. -/
theorem isVersion_iff {documents : List Json.Value} {classification path : String} {r : Record}
    (hobjects : ∀ d ∈ documents, d.isObject = true) :
    IsVersion documents classification path r ↔
      ∃ d ∈ documents.filter
        (Filter.accepts · (Query.latest (.derive path) classification).filter),
        Record.decode d = .ok r := by
  have haccepts : ∀ d ∈ documents, Record.decode d = .ok r →
      ((Query.latest (.derive path) classification).filter.accepts d = true ↔
        r.identifier = .derive path ∧ r.classification = classification) := by
    intro d hd hdecode
    rw [Query.accepts_latest (Record.shows_of_decode (hobjects d hd) hdecode)]
    simp
  constructor
  · rintro ⟨⟨d, hd, hdecode⟩, hsuits⟩
    exact ⟨d, List.mem_filter.mpr ⟨hd, (haccepts d hd hdecode).mpr hsuits⟩, hdecode⟩
  · rintro ⟨d, hmem, hdecode⟩
    obtain ⟨hd, hasked⟩ := List.mem_filter.mp hmem
    exact ⟨⟨d, hd, hdecode⟩, (haccepts d hd hdecode).mp hasked⟩

namespace Store

variable {store : Store} {engine : Engine} {ns : Namespace} {classification path : String}

/-- A read of a newest version comes to what the first of the documents is that it asks for. -/
theorem resume_take_one (store : Store) (key : CacheKey) (query : Query) (index : String)
    (epoch : Nat) (documents : List Json.Value) :
    (documents = [] ∧ store.resume (.latest key query index epoch) (.ok (documents.take 1)) =
        (.ended (.error (notFound key.scope key.text)), store)) ∨
      ∃ d rest later, documents = d :: rest ∧
        store.resume (.latest key query index epoch) (.ok (documents.take 1)) =
          (.ended ((Record.decode d).map .record), later) := by
  cases documents with
  | nil => exact .inl ⟨rfl, rfl⟩
  | cons d rest =>
    refine .inr ⟨d, rest, ?_⟩
    cases hdecode : Record.decode d with
    | error e =>
      have hall : decodeAll ((d :: rest).take 1) = .error e := by simp [decodeAll, hdecode]
      exact ⟨store, rfl, by simp only [resume, hall]; rfl⟩
    | ok r =>
      have hall : decodeAll ((d :: rest).take 1) = .ok [r] := by simp [decodeAll, hdecode]
      exact ⟨store.keep key r epoch, rfl, by simp only [resume, hall]; rfl⟩

/-- A read of a path from the engine is refused or not served, or it comes to what the first of
the sorted documents is. -/
theorem getFresh_cases (store : Store) (engine : Engine) (ns : Namespace)
    (classification path : String) :
    let query := Query.latest (.derive path) classification
    let sorted := stableSort query.compare
      ((engine.documents (store.index ns)).filter (Filter.accepts · query.filter))
    let outcome := (store.perform (fun request engine => engine.serve request)
      (.getFresh ns classification path) engine).1
    (∃ e, outcome = .error e ∧ (classification = "" ∨ engine.unavailable = true)) ∨
      (sorted = [] ∧ outcome = .error (notFound ns (Identifier.derive path).text)) ∨
      ∃ d rest, sorted = d :: rest ∧ outcome = (Record.decode d).map .record := by
  intro query sorted outcome
  cases hempty : classification.toList.isEmpty with
  | true =>
    left
    have hrefused : outcome = .error (Error.missing "classification") := by
      simp [outcome, perform, start, accept, Call.required, missing?, hempty]
    exact ⟨_, hrefused, .inl (by simpa using hempty)⟩
  | false =>
    have hstart : store.start none (.getFresh ns classification path) =
        (.waits (store.fetching (.ofPath false ns classification path)), store) := by
      simp [start, accept, Call.required, missing?, hempty, startLatest, lookUp, LatestRead.ofPath]
    cases hunavailable : engine.unavailable with
    | true =>
      have hserve := congrArg Prod.fst
        (Engine.serve_of_unavailable hunavailable (.search (store.index ns) query))
      exact .inl ⟨Engine.outage, outcome_perform hstart hserve rfl, .inr rfl⟩
    | false =>
      have hserve : (engine.serve (.search (store.index ns) query)).1 = .ok (sorted.take 1) := by
        simp only [Engine.serve, hunavailable]
        rfl
      rcases resume_take_one store (.ofIdentifier ns classification (.derive path)) query
          (store.index ns) store.memory.cache.epoch sorted with
        ⟨hnone, hresume⟩ | ⟨d, rest, _, hsorted, hresume⟩
      · exact .inr (.inl ⟨hnone, outcome_perform hstart hserve hresume⟩)
      · exact .inr (.inr ⟨d, rest, hsorted, outcome_perform hstart hserve hresume⟩)

/-- **The newest version.** Let the index of a namespace hold any objects, of which those that
bear an identifier and a classification can be put in order by their times. A read of that
path from the engine returns a version of it than which none is newer, or it fails: its
classification is empty, the engine serves nothing, there is no version, or some document
that the read asks for cannot be read. -/
theorem newest_of_ordered
    (hobjects : ∀ d ∈ engine.documents (store.index ns), d.isObject = true)
    (hordered : OrderedOn (Query.latest (.derive path) classification).compare
      ((engine.documents (store.index ns)).filter
        (Filter.accepts · (Query.latest (.derive path) classification).filter))) :
    let documents := engine.documents (store.index ns)
    let outcome := (store.perform (fun request engine => engine.serve request)
      (.getFresh ns classification path) engine).1
    (∀ reply, outcome = .ok reply → ∃ r, reply = .record r ∧
      IsVersion documents classification path r ∧
      ∀ s, IsVersion documents classification path s → s.timestamp ≤ r.timestamp) ∧
    ∀ e, outcome = .error e → classification = "" ∨ engine.unavailable = true ∨
      (e = notFound ns (Identifier.derive path).text ∧
        ∀ s, ¬IsVersion documents classification path s) ∨
      ∃ d ∈ documents, Record.decode d = .error e ∧
        (Query.latest (.derive path) classification).filter.accepts d = true := by
  intro documents outcome
  set query := Query.latest (.derive path) classification
  rcases getFresh_cases store engine ns classification path with
    ⟨e, herror, hcause⟩ | ⟨hnone, herror⟩ | ⟨d, rest, hsorted, houtcome⟩
  · exact ⟨(fun reply hreply => nomatch herror.symm.trans hreply),
      fun _ _ => hcause.imp_right .inl⟩
  · refine ⟨(fun reply hreply => nomatch herror.symm.trans hreply), fun e he => ?_⟩
    refine .inr (.inr (.inl ⟨(Except.error.inj (herror.symm.trans he)).symm, fun s hs => ?_⟩))
    obtain ⟨d, hd, -⟩ := (isVersion_iff hobjects).mp hs
    exact absurd (hnone ▸ mem_stableSort.mpr hd) List.not_mem_nil
  · have hasked : d ∈ documents.filter (Filter.accepts · query.filter) :=
      mem_stableSort.mp (hsorted ▸ List.mem_cons_self)
    obtain ⟨hd, haccepts⟩ := List.mem_filter.mp hasked
    cases hdecode : Record.decode d with
    | error e =>
      have herror : outcome = .error e := houtcome.trans (by rw [hdecode]; rfl)
      refine ⟨(fun reply hreply => nomatch herror.symm.trans hreply), fun e' he' => ?_⟩
      obtain rfl := Except.error.inj (herror.symm.trans he')
      exact .inr (.inr (.inr ⟨d, hd, hdecode, haccepts⟩))
    | ok r =>
      have hok : outcome = .ok (.record r) := houtcome.trans (by rw [hdecode]; rfl)
      refine ⟨fun reply hreply => ?_, fun e he => nomatch hok.symm.trans he⟩
      refine ⟨r, (Except.ok.inj (hok.symm.trans hreply)).symm,
        (isVersion_iff hobjects).mpr ⟨d, hasked, hdecode⟩, fun s hs => ?_⟩
      -- what comes first is not older than any other version
      obtain ⟨d', hasked', hdecode'⟩ := (isVersion_iff hobjects).mp hs
      have hfirst := isLE_of_stableSort_eq_cons hordered hsorted hasked'
      rw [Query.compare_latest (Record.shows_of_decode (hobjects d hd) hdecode)
        (Record.shows_of_decode (hobjects d' (List.mem_filter.mp hasked').1) hdecode'),
        Query.isLE_compareNewest] at hfirst
      exact of_decide_eq_true hfirst

/-- A document without a time comes between two versions; the newer of them is returned. -/
theorem newest_of_ordered_without_time :
    let ns : Namespace := ⟨"a", by decide, by decide⟩
    let old := Record.make "c" "p" "k" "old" 1
    let new := Record.make "c" "p" "k" "new" 2
    let timeless : Json.Value :=
      .object [("doc_type", .string "c"), ("id", .string (Identifier.derive "p").text)]
    let store : Store := ⟨.standard, {cache := .make second, clock := ⟨0, 0⟩}⟩
    let engine : Engine :=
      {indices := [("a_datastore", [old.document, timeless, new.document])]}
    let outcome := (store.perform (fun request engine => engine.serve request)
      (.getFresh ns "c" "p") engine).1
    outcome.toOption.map Reply.contents = some [new] ∧
      ∀ s, IsVersion (engine.documents (store.index ns)) "c" "p" s → s.timestamp ≤ new.timestamp := by
  intro ns old new timeless store engine outcome
  have hdocuments : engine.documents (store.index ns) = [old.document, timeless, new.document] := by
    have hindex : store.index ns = "a_datastore" := by decide
    simp [hindex, engine, Engine.documents, Table.get?]
  have hobjects : ∀ d ∈ engine.documents (store.index ns), d.isObject = true := by
    simp only [hdocuments, List.mem_cons, List.not_mem_nil, or_false]
    rintro d (rfl | rfl | rfl) <;> rfl
  have hordered : OrderedOn (Query.latest (.derive "p") "c").compare
      ((engine.documents (store.index ns)).filter
        (Filter.accepts · (Query.latest (.derive "p") "c").filter)) := by
    refine Query.orderedOn_newest _ _ fun d hd => ?_
    replace hd := (List.mem_filter.mp hd).1
    simp only [hdocuments, List.mem_cons, List.not_mem_nil, or_false] at hd
    rcases hd with rfl | rfl | rfl
    · exact .inr ⟨1, rfl⟩
    · exact .inl rfl
    · exact .inr ⟨2, rfl⟩
  have hcontents : outcome.toOption.map Reply.contents = some [new] := by decide +kernel
  obtain ⟨hnewest, -⟩ := newest_of_ordered hobjects hordered
  cases houtcome : outcome with
  | error e => rw [houtcome] at hcontents; cases hcontents
  | ok reply =>
    obtain ⟨r, rfl, -, hgreatest⟩ := hnewest reply houtcome
    rw [houtcome] at hcontents
    have hnew : r = new := (List.cons.inj (Option.some.inj hcontents)).1
    exact ⟨hcontents, hnew ▸ hgreatest⟩

/-- A time that is a text hides the newest version: it is told apart neither from the older
time in front of it nor from the newer one behind it, so the older stays in front. -/
theorem newest_hidden_by_text :
    let ns : Namespace := ⟨"a", by decide, by decide⟩
    let old := Record.make "c" "p" "k" "old" 1
    let new := Record.make "c" "p" "k" "new" 2
    let broken : Json.Value := .object
      [("doc_type", .string "c"), ("id", .string (Identifier.derive "p").text),
       ("timestamp", .string "x")]
    let store : Store := ⟨.standard, {cache := .make second, clock := ⟨0, 0⟩}⟩
    let engine : Engine :=
      {indices := [("a_datastore", [old.document, broken, new.document])]}
    let outcome := (store.perform (fun request engine => engine.serve request)
      (.getFresh ns "c" "p") engine).1
    outcome.toOption.map Reply.contents = some [old] ∧
      IsVersion (engine.documents (store.index ns)) "c" "p" new ∧
      old.timestamp < new.timestamp := by
  intro ns old new broken store engine outcome
  have hindex : store.index ns = "a_datastore" := by decide
  refine ⟨by decide +kernel, ⟨⟨new.document, ?_, Record.decode_document rfl⟩, rfl, rfl⟩, by decide⟩
  simp [hindex, engine, Engine.documents, Table.get?]

end Store

end VersionStore
