import VersionStore.Proofs.Engine

/-! What a store comes to when one call is made after the other.

A ledger is the list of the records of each namespace, in the order in which they were
written. On it a call happens at once (`perform?`). When the documents of an engine are
those of a ledger, serving the request of a call has the effect that the call has on the
ledger, and the call returns what it would return there (`Written.serve`). -/
namespace VersionStore

/-- The records of each namespace, in the order in which they were written. -/
def Ledger := Namespace → List Record

namespace Ledger

def empty : Ledger := fun _ => []

def put (ledger : Ledger) (ns : Namespace) (records : List Record) : Ledger :=
  fun other => if other = ns then records else ledger other

/-- The records of a path, in the order in which they were written. -/
def atPath (ledger : Ledger) (ns : Namespace) (classification path : String) : List Record :=
  (ledger ns).filter fun r =>
    decide (r.classification = classification ∧ r.identifier = Identifier.derive path)

/-- The versions of a path, the newest first; those of one time in the order in which they were
written. -/
def versions (ledger : Ledger) (ns : Namespace) (classification path : String) : List Record :=
  (ledger.atPath ns classification path).mergeSort fun r s => decide (s.timestamp ≤ r.timestamp)

/-- What a read for one record returns. -/
def answer (ns : Namespace) (key : String) : Option Record → Outcome
  | some r => .ok (.record r)
  | none => .error (.storage (.notFound ns.text key))

/-- What a call returns and leaves when it happens at once, at a time that the clock showed. The
calls that the cache may answer are left out. -/
def perform? (ledger : Ledger) (stamp : Int64) : Call → Option (Outcome × Ledger)
  | .put ns classification path kind payload =>
    let r := Record.make classification path kind payload stamp
    some (.ok (.record r), ledger.put ns (ledger ns ++ [r]))
  | .delete ns _ | .reset ns _ => some (.ok .done, ledger.put ns [])
  | .getFresh ns classification path =>
    some (answer ns (Identifier.derive path).text (ledger.versions ns classification path).head?,
      ledger)
  | .getVersion ns classification path timestamp =>
    some (answer ns ((Identifier.derive path).text ++ "@" ++ toString timestamp.toInt)
      ((ledger.atPath ns classification path).find? fun r => decide (r.timestamp = timestamp)),
      ledger)
  | .history ns classification path limit =>
    some (.ok (.records ((ledger.versions ns classification path).take limit.toNat)), ledger)
  | .get .. | .getStarting .. | .listNamespaces | .direct _ => none

/-- Whether a ledger says which documents an engine holds. -/
structure Written (index : Namespace → String) (engine : Engine) (ledger : Ledger) : Prop where
  genuine : ∀ ns, ∀ r ∈ ledger ns, r.IsGenuine
  documents : ∀ ns, engine.documents (index ns) = (ledger ns).map Record.document

/-! ### Queries -/

theorem atPath_eq (ledger : Ledger) (ns : Namespace) (classification path : String) :
    ledger.atPath ns classification path = (ledger ns).filter fun r =>
      (Filter.term "id" (.string (Identifier.derive path).text)).accepts r.document &&
        decide (r.classification = classification) := by
  unfold atPath
  congr 1
  funext r
  rw [Filter.accepts_id, Bool.decide_and, Bool.and_comm]

variable {index : Namespace → String} {engine : Engine} {ledger : Ledger}

namespace Written

theorem isGenuine_of_mem_atPath (h : Written index engine ledger) {ns : Namespace}
    {classification path : String} {r : Record}
    (hr : r ∈ ledger.atPath ns classification path) : r.IsGenuine :=
  h.genuine ns r (List.mem_filter.mp hr).1

theorem isGenuine_of_mem_versions (h : Written index engine ledger) {ns : Namespace}
    {classification path : String} {r : Record}
    (hr : r ∈ ledger.versions ns classification path) : r.IsGenuine :=
  h.isGenuine_of_mem_atPath (List.mem_mergeSort.mp hr)

/-- A query for the newest versions of a path selects them. -/
theorem select_versions (h : Written index engine ledger) (ns : Namespace)
    (classification path : String) (limit : UInt64) :
    (Query.versions (.derive path) classification limit).select (engine.documents (index ns)) =
      ((ledger.versions ns classification path).take limit.toNat).map Record.document := by
  rw [h.documents, Query.versions, Query.select_newest, versions, atPath_eq]

theorem select_latest (h : Written index engine ledger) (ns : Namespace)
    (classification path : String) :
    (Query.latest (.derive path) classification).select (engine.documents (index ns)) =
      ((ledger.versions ns classification path).take 1).map Record.document := by
  rw [h.documents, Query.latest, Query.select_newest, versions, atPath_eq]
  rfl

theorem select_version (h : Written index engine ledger) (ns : Namespace)
    (classification path : String) (timestamp : Int64) :
    (Query.version (.derive path) classification timestamp).select (engine.documents (index ns)) =
      ((ledger.atPath ns classification path).find? fun r =>
        decide (r.timestamp = timestamp)).toList.map Record.document := by
  rw [h.documents, Query.select_version, atPath, List.find?_filter]
  congr 3
  funext r
  simp only [Bool.decide_and, Bool.decide_eq_true]
  rw [Bool.and_comm (decide (r.classification = classification))]

end Written

end Ledger

/-! ### Answers -/

/-- What a call returns that goes on, if nothing fails any more. -/
def Resumed.outcome : Resumed → Outcome
  | .ended outcome => outcome
  | .creates _ => .ok .done

namespace Store

variable (store : Store)

/-- A read of a newest version ends with the record that was found. -/
theorem resume_latest_of_found (key : CacheKey) (query : Query) (index : String) (epoch : Nat)
    {found : Option Record} (h : ∀ r ∈ found, r.IsGenuine) :
    ∃ later, store.resume (.latest key query index epoch)
        (.ok (found.toList.map Record.document)) =
      (.ended (Ledger.answer key.scope key.text found), later) := by
  cases found with
  | none => exact ⟨store, rfl⟩
  | some r =>
    have hdecode : decodeAll ([r].map Record.document) = .ok [r] :=
      decodeAll_documents (by simpa using h)
    refine ⟨store.keep key r epoch, ?_⟩
    simp only [resume, Option.toList_some, hdecode]
    rfl

theorem outcome_resume_latest (key : CacheKey) (query : Query) (index : String) (epoch : Nat)
    {found : Option Record} (h : ∀ r ∈ found, r.IsGenuine) :
    (store.resume (.latest key query index epoch) (.ok (found.toList.map Record.document))).1.outcome =
      Ledger.answer key.scope key.text found := by
  obtain ⟨later, hresume⟩ := store.resume_latest_of_found key query index epoch h
  rw [hresume]
  rfl

theorem outcome_resume_version (ns : Namespace) (identifier : Identifier) (timestamp : Int64)
    (query : Query) (index : String) {found : Option Record} (h : ∀ r ∈ found, r.IsGenuine) :
    (store.resume (.version ns identifier timestamp query index)
        (.ok (found.toList.map Record.document))).1.outcome =
      Ledger.answer ns (identifier.text ++ "@" ++ toString timestamp.toInt) found := by
  cases found with
  | none => rfl
  | some r =>
    have hdecode : decodeAll ([r].map Record.document) = .ok [r] :=
      decodeAll_documents (by simpa using h)
    simp only [resume, Option.toList_some, hdecode]
    rfl

theorem outcome_resume_versions (query : Query) (index : String) {records : List Record}
    (h : ∀ r ∈ records, r.IsGenuine) :
    (store.resume (.versions query index) (.ok (records.map Record.document))).1.outcome =
      .ok (.records records) := by
  simp only [resume, decodeAll_documents h]
  rfl

theorem outcome_resume_removal (index : String) (detached again : Bool) (done : Unit) :
    (store.resume (.removal index detached again) (.ok done)).1.outcome = .ok .done := by
  cases again <;> rfl

end Store

namespace Ledger.Written

variable {index : Namespace → String} {engine : Engine} {ledger later : Ledger} {call : Call}
  {await : Await} {stamp : Int64} {outcome : Outcome}

theorem of_documents {other : Engine} (h : Written index engine ledger)
    (hsame : ∀ name, other.documents name = engine.documents name) :
    Written index other ledger where
  genuine := h.genuine
  documents := fun ns => (hsame _).trans (h.documents ns)

theorem append (h : Written index engine ledger) (hserved : engine.unavailable = false)
    (hindex : ∀ ns other, index ns = index other ↔ ns = other) (ns : Namespace) {r : Record}
    (hr : r.IsGenuine) (classification identifier : String) :
    Written index (engine.serve (.index (index ns) classification identifier r.document)).2
      (ledger.put ns (ledger ns ++ [r])) where
  genuine := fun other s hs => by
    unfold put at hs
    split at hs
    · rcases List.mem_append.mp hs with hs | hs
      · exact h.genuine ns s hs
      · rwa [List.mem_singleton.mp hs]
    · exact h.genuine other s hs
  documents := fun other => by
    rw [Engine.documents_serve_index hserved, put]
    by_cases hother : other = ns
    · subst hother
      simp [h.documents]
    · rw [if_neg (mt (hindex other ns).mp hother), if_neg hother, h.documents]

theorem clear (h : Written index engine ledger) (hserved : engine.unavailable = false)
    (hindex : ∀ ns other, wildcardMatches (index ns) (index other) = true ↔ other = ns)
    (ns : Namespace) :
    Written index (engine.serve (.deleteIndices (index ns))).2 (ledger.put ns []) where
  genuine := fun other s hs => by
    unfold put at hs
    split at hs
    · cases hs
    · exact h.genuine other s hs
  documents := fun other => by
    rw [Engine.documents_serve_delete hserved, put]
    by_cases hother : other = ns
    · rw [if_pos ((hindex ns other).mpr hother), if_pos hother]
      rfl
    · rw [if_neg (mt (hindex ns other).mp hother), if_neg hother, h.documents]

/-- A call that a ledger does not know changes no document. -/
theorem serve_of_unknown (h : Written index engine ledger) (hasks : Asks index call await)
    (hown : call.isOwn = true) (hperform : ledger.perform? stamp call = none) :
    Written index (engine.serve await.request).2 ledger := by
  cases hasks with
  | latest => exact h.of_documents fun name => Engine.documents_serve_search ..
  | listing => exact h.of_documents fun name => Engine.documents_serve_list ..
  | direct => cases hown
  | _ => cases hperform

/-- Serving the request of a call is making the call on the ledger. -/
theorem serve (h : Written index engine ledger) (hserved : engine.unavailable = false)
    (hindex : ∀ ns other, wildcardMatches (index ns) (index other) = true ↔ other = ns)
    (hasks : Asks index call await) (hfirst : ∀ name, await ≠ .creation name)
    (hstamp : ∀ r name, await = .write r name → r.timestamp = stamp)
    (hperform : ledger.perform? stamp call = some (outcome, later)) :
    (∃ answer, (engine.serve await.request).1 = .ok answer ∧
      ∀ store : Store, (store.resume await (.ok answer)).1.outcome = outcome) ∧
      Written index (engine.serve await.request).2 later := by
  have hsearch : ∀ name query, (engine.serve (.search name query)).1 =
      .ok (query.select (engine.documents name)) := fun name query => by
    simp [Engine.serve, hserved]
  have hsearched : ∀ name query, Written index (engine.serve (.search name query)).2 ledger :=
    fun name query => h.of_documents fun other => Engine.documents_serve_search ..
  cases hasks with
  | @write ns classification path kind payload stamp' =>
    obtain rfl : stamp' = stamp := hstamp _ _ rfl
    cases hperform
    refine ⟨⟨(), by simp [Await.request, Engine.serve, hserved], fun store => rfl⟩, ?_⟩
    exact h.append hserved (index_inj hindex) ns (Record.isGenuine_make ..) _ _
  | @latest call read hlatest epoch =>
    cases call <;> cases hlatest <;> cases hperform
    case getFresh.refl.refl ns classification path =>
      refine ⟨⟨_, hsearch .., fun store => ?_⟩, hsearched ..⟩
      have hgenuine : ∀ r ∈ (ledger.versions ns classification path).head?, r.IsGenuine :=
        fun r hr => h.isGenuine_of_mem_versions (List.mem_of_mem_head? hr)
      have hanswer := store.outcome_resume_latest (.ofIdentifier ns classification (.derive path))
        (.latest (.derive path) classification) (index ns) epoch hgenuine
      rw [← List.take_one, ← h.select_latest] at hanswer
      exact hanswer
  | @version ns classification path timestamp =>
    cases hperform
    refine ⟨⟨_, hsearch .., fun store => ?_⟩, hsearched ..⟩
    rw [h.select_version]
    exact store.outcome_resume_version _ _ _ _ _ fun r hr =>
      h.isGenuine_of_mem_atPath (List.mem_of_find?_eq_some hr)
  | @versions ns classification path limit =>
    cases hperform
    refine ⟨⟨_, hsearch .., fun store => ?_⟩, hsearched ..⟩
    rw [h.select_versions]
    exact store.outcome_resume_versions _ _ fun r hr =>
      h.isGenuine_of_mem_versions (List.mem_of_mem_take hr)
  | @delete ns detached | @reset ns detached =>
    cases hperform
    refine ⟨⟨(), by simp [Await.request, Engine.serve, hserved], fun store => ?_⟩, ?_⟩
    · exact store.outcome_resume_removal ..
    · exact h.clear hserved hindex ns
  | creation => exact absurd rfl (hfirst _)
  | listing | direct => cases hperform

end Ledger.Written

end VersionStore
