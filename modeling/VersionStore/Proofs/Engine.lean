import VersionStore.Engine.Memory
import VersionStore.Proofs.Calls
import VersionStore.Proofs.Wildcard
import VersionStore.Threads

/-! What the engine makes of the requests of calls.

The suffix of a usable store holds no star, so a removal takes exactly one index with it
(`wildcardMatches_index`), and no two namespaces share an index. The answer to a read
holds documents of the index of its namespace that the read asks for (`mem_answer`), and no
call but a put adds a document (`documents_serve`). -/
namespace VersionStore

/-! ### Names without stars -/

theorem StoreConfig.validate_standard : standard.validate = .ok () := by
  unfold validate
  rw [if_neg (by decide), if_neg (by decide), if_neg (by decide), if_neg (by decide)]

/-- A suffix that passes the checks of the settings holds no star. -/
theorem StoreConfig.star_not_mem {config : StoreConfig} (h : config.validate = .ok ()) :
    '*' ∉ config.suffix.toList := by
  obtain ⟨-, -, hall⟩ := validate_eq_ok_iff.mp h
  exact fun hmem => absurd (hall _ hmem) (by decide)

namespace Namespace

theorem star_not_mem (ns : Namespace) : '*' ∉ ns.text.toList := fun hmem =>
  absurd (ns.isNameChar_of_mem hmem) (by decide)

/-- No two namespaces share an index. -/
theorem indexName_inj {ns other : Namespace} {suffix : String} :
    ns.indexName suffix = other.indexName suffix ↔ ns = other := by
  rw [indexName, indexName, ← String.toList_inj, String.toList_append, String.toList_append,
    List.append_cancel_right_eq, String.toList_inj, text_inj]

end Namespace

/-- The name of an index is a pattern that matches nothing else. -/
theorem wildcardMatches_indexName {config : StoreConfig} (h : config.validate = .ok ())
    (ns : Namespace) (name : String) :
    wildcardMatches (ns.indexName config.suffix) name = true ↔ name = ns.indexName config.suffix :=
  wildcardMatches_iff (by simp [Namespace.indexName, ns.star_not_mem, StoreConfig.star_not_mem h])
    name

/-- Removing a namespace takes no other with it. -/
theorem wildcardMatches_index {config : StoreConfig} (h : config.validate = .ok ())
    (ns other : Namespace) :
    wildcardMatches (ns.indexName config.suffix) (other.indexName config.suffix) = true ↔
      other = ns := by
  rw [wildcardMatches_indexName h, Namespace.indexName_inj]

/-- If removing a namespace takes no other with it, no two namespaces share an index. -/
theorem index_inj {index : Namespace → String}
    (h : ∀ ns other, wildcardMatches (index ns) (index other) = true ↔ other = ns)
    (ns other : Namespace) : index ns = index other ↔ ns = other := by
  constructor
  · intro heq
    rw [← h other ns, heq, h]
  · rintro rfl
    rfl

/-- Removing a namespace removes its index, and that is all. -/
theorem Engine.delete_indexName {config : StoreConfig} (h : config.validate = .ok ())
    (ns : Namespace) (engine : Engine) :
    engine.delete (ns.indexName config.suffix) =
      {engine with indices := engine.indices.filter (·.1 != ns.indexName config.suffix)} := by
  have hkeeps : (fun entry : String × List Json.Value =>
      !wildcardMatches (ns.indexName config.suffix) entry.1) =
        (·.1 != ns.indexName config.suffix) := by
    funext entry
    rw [Bool.eq_iff_iff, Bool.not_eq_true', ← Bool.not_eq_true, wildcardMatches_indexName h,
      bne_iff_ne]
  unfold delete
  rw [hkeeps]

/-! ### The answers to calls -/

theorem Context.isUnserved_of_ended? {context : Context} {tokens : Tokens} {now : Nat} {e : Error}
    (h : context.ended? tokens now = some e) : e.IsUnserved := by
  unfold ended? at h
  split at h
  · cases h
    exact .inr rfl
  · split at h
    · cases h
      exact .inr rfl
    · cases h

/-- A query selects documents of the index that pass its filter. -/
theorem Query.mem_of_mem_select {query : Query} {documents : List Json.Value} {d : Json.Value}
    (h : d ∈ query.select documents) : d ∈ documents ∧ query.filter.accepts d = true :=
  List.mem_filter.mp (mem_stableSort.mp (List.mem_of_mem_take h))

namespace Engine

variable {engine : Engine}

theorem serve_of_unavailable (h : engine.unavailable = true) (request : Request) :
    engine.serve request = (.error outage, engine) := by
  unfold serve
  rw [if_pos h]

/-- The engine fails only by serving nothing. -/
theorem isUnserved_of_serve {request : Request} {e : Error}
    (h : (engine.serve request).1 = .error e) : e.IsUnserved := by
  unfold serve at h
  split at h
  · cases h
    exact .inl rfl
  · cases request <;> cases h

theorem documents_serve_index (h : engine.unavailable = false)
    (index classification identifier name : String) (document : Json.Value) :
    (engine.serve (.index index classification identifier document)).2.documents name =
      if name = index then engine.documents index ++ [document] else engine.documents name := by
  simp only [serve, h]
  exact documents_insert engine index name document

theorem documents_serve_delete (h : engine.unavailable = false) (pattern name : String) :
    (engine.serve (.deleteIndices pattern)).2.documents name =
      if wildcardMatches pattern name then [] else engine.documents name := by
  simp only [serve, h]
  exact documents_delete engine pattern name

theorem documents_serve_search (engine : Engine) (index name : String) (query : Query) :
    (engine.serve (.search index query)).2.documents name = engine.documents name := by
  unfold serve
  split <;> rfl

theorem documents_serve_create (engine : Engine) (index name : String) :
    (engine.serve (.createIndex index)).2.documents name = engine.documents name := by
  unfold serve
  split
  · rfl
  · exact documents_create engine index name

theorem documents_serve_list (engine : Engine) (name : String) :
    (engine.serve .listIndices).2.documents name = engine.documents name := by
  unfold serve
  split <;> rfl

theorem has_serve_index (h : engine.unavailable = false)
    (index classification identifier name : String) (document : Json.Value) :
    (engine.serve (.index index classification identifier document)).2.indices.has name =
      (engine.indices.has name || name == index) := by
  simp [serve, h, insert, Table.has_update]

theorem has_serve_create (h : engine.unavailable = false) (index name : String) :
    (engine.serve (.createIndex index)).2.indices.has name =
      (engine.indices.has name || name == index) := by
  simp [serve, h, create, Table.has_update]

theorem has_serve_delete (h : engine.unavailable = false) (pattern name : String) :
    (engine.serve (.deleteIndices pattern)).2.indices.has name =
      (engine.indices.has name && !wildcardMatches pattern name) := by
  simp only [serve, h]
  exact Table.has_filter (fun name => !wildcardMatches pattern name) ..

theorem mem_of_serve_search {index : String} {query : Query}
    {answer : Result (List Json.Value)} {d : Json.Value}
    (hanswer : (engine.serve (.search index query)).1 = answer)
    (hd : d ∈ answer.toOption.getD []) :
    d ∈ engine.documents index ∧ query.filter.accepts d = true := by
  subst hanswer
  unfold serve at hd
  split at hd
  · cases hd
  · exact Query.mem_of_mem_select hd

end Engine

section
variable {index : Namespace → String} {call : Call} {await : Await} {engine : Engine}

/-- The answer to a read holds documents of its namespace that the read asks for. -/
theorem mem_answer {ns : Namespace} {d : Json.Value} (hasks : Asks index call await)
    (hreads : call.reads? = some ns)
    (hd : d ∈ await.documents (engine.serve await.request).1) :
    d ∈ engine.documents (index ns) ∧ ∀ r : Record, d = r.document → call.Suits r := by
  cases hasks with
  | latest hlatest epoch =>
    obtain rfl := Option.some.inj ((Call.reads?_of_latest? hlatest).symm.trans hreads)
    obtain ⟨hmem, haccepts⟩ := Engine.mem_of_serve_search rfl hd
    refine ⟨hmem, ?_⟩
    rintro r rfl
    exact Call.suits_of_accepts hlatest haccepts
  | version =>
    cases hreads
    obtain ⟨hmem, haccepts⟩ := Engine.mem_of_serve_search rfl hd
    refine ⟨hmem, ?_⟩
    rintro r rfl
    simpa [Filter.accepts_version, Call.Suits, and_comm, and_assoc, and_left_comm] using haccepts
  | versions =>
    cases hreads
    obtain ⟨hmem, haccepts⟩ := Engine.mem_of_serve_search rfl hd
    refine ⟨hmem, ?_⟩
    rintro r rfl
    simpa [Query.versions, Filter.accepts_newest, Filter.accepts_id, Call.Suits, and_comm]
      using haccepts
  | _ => cases hreads

/-- What a served request of a call changes in an index: nothing, or it empties an index that it
removes, or it adds the record of a put. -/
theorem documents_serve (hasks : Asks index call await) (hown : call.isOwn = true)
    (name : String) :
    (engine.serve await.request).2.documents name = engine.documents name ∨
      (∃ pattern detached again,
        engine.unavailable = false ∧ await = .removal pattern detached again ∧
        wildcardMatches pattern name = true ∧
        (engine.serve await.request).2.documents name = []) ∨
      ∃ ns classification path kind payload stamp,
        engine.unavailable = false ∧ call = .put ns classification path kind payload ∧
        await = .write (.make classification path kind payload stamp) (index ns) ∧
        name = index ns ∧
        (engine.serve await.request).2.documents name = engine.documents name ++
          [(Record.make classification path kind payload stamp).document] := by
  cases hunavailable : engine.unavailable with
  | true =>
    rw [Engine.serve_of_unavailable hunavailable]
    exact .inl rfl
  | false =>
    cases hasks with
    | @write ns classification path kind payload stamp =>
      by_cases hname : name = index ns
      · refine .inr (.inr ⟨ns, classification, path, kind, payload, stamp, rfl, rfl, rfl, hname, ?_⟩)
        rw [hname]
        exact (Engine.documents_serve_index hunavailable ..).trans (if_pos rfl)
      · left
        exact (Engine.documents_serve_index hunavailable ..).trans (if_neg hname)
    | @delete ns | @reset ns =>
      have hdelete := Engine.documents_serve_delete hunavailable (index ns) name
      by_cases hmatch : wildcardMatches (index ns) name
      · rw [if_pos hmatch] at hdelete
        exact .inr (.inl ⟨_, _, _, rfl, rfl, hmatch, hdelete⟩)
      · rw [if_neg hmatch] at hdelete
        exact .inl hdelete
    | latest | version | versions => exact .inl (Engine.documents_serve_search ..)
    | creation => exact .inl (Engine.documents_serve_create ..)
    | listing => exact .inl (Engine.documents_serve_list ..)
    | direct => cases hown

end

end VersionStore
