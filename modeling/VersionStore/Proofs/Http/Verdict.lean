import VersionStore.Proofs.Http.Envelope
import VersionStore.Proofs.Http.Session
import VersionStore.Proofs.Json.Printing

/-! What is made of responses.

Whatever the status and whatever the body, a call says yes exactly where the response does,
and otherwise gives the one error that belongs to the call (`Gives`): that the engine is not
available, or that something is wrong with the index or the pattern that was named. The
same status may mean different things: that something is missing is an empty answer to a
search, success to a removal and a failure of everything else. The main result is
`answers_of_response`. -/
namespace VersionStore

open Json (Tree Piece)

theorem Text.occursIn_iff {part cs : List Char} : occursIn part cs = true ↔ part <:+: cs := by
  induction cs with
  | nil => simp [occursIn]
  | cons c rest ih => rw [occursIn, Bool.or_eq_true, ih, List.isPrefixOf_iff_prefix,
      List.infix_cons_iff]

/-- Whether an answer is any of the good ones, or an error if there is none. -/
structure Gives {α : Type} (answer : Result α) (good : α → Prop) (error : Error) : Prop where
  ok_iff : ∀ a, answer = .ok a ↔ good a
  error_iff : ∀ e, answer = .error e ↔ (¬∃ a, good a) ∧ e = error

namespace Gives

variable {α : Type} {error : Error}

theorem of_ok {a : α} {good : α → Prop} (h : ∀ b, a = b ↔ good b) :
    Gives (.ok a) good error where
  ok_iff b := by rw [Except.ok.injEq, h]
  error_iff e := ⟨nofun, fun ⟨hnone, _⟩ => absurd ⟨a, (h a).mp rfl⟩ hnone⟩

theorem of_error {good : α → Prop} (h : ∀ a, ¬good a) : Gives (.error error) good error where
  ok_iff a := ⟨nofun, fun hgood => absurd hgood (h a)⟩
  error_iff e := by
    rw [Except.error.injEq, eq_comm]
    exact ⟨fun he => ⟨fun ⟨a, hgood⟩ => h a hgood, he⟩, And.right⟩

/-- An answer without particulars is good under a condition. -/
theorem of_condition {condition : Bool} {good : Prop} (h : condition = true ↔ good) :
    Gives (if condition then .ok () else .error error) (fun _ => good) error := by
  cases condition with
  | true => exact of_ok fun _ => ⟨fun _ => h.mp rfl, fun _ => rfl⟩
  | false => exact of_error fun _ hgood => Bool.false_ne_true (h.mpr hgood)

/-- What is read is the answer. -/
theorem of_read (read? : Option α) {answer : Result α} {good : α → Prop}
    (hsome : ∀ a, read? = some a → answer = .ok a) (hnone : read? = none → answer = .error error)
    (h : ∀ a, read? = some a ↔ good a) : Gives answer good error := by
  cases hread : read? with
  | some a =>
    rw [hsome a hread]
    exact of_ok fun b => by rw [← h, hread, Option.some.injEq]
  | none =>
    rw [hnone hread]
    exact of_error fun a hgood => nomatch hread.symm.trans ((h a).mpr hgood)

end Gives

namespace HttpClient

/-! ### Readers -/

theorem isSuccess_of_missing {response : HttpResponse} (h : response.status = 404) :
    response.isSuccess = false := by
  unfold HttpResponse.isSuccess
  rw [h]
  rfl

theorem accepts_iff {response : HttpResponse} : accepts response = true ↔
    response.isSuccess = true ∨ response.status = 400 ∧
      "resource_already_exists_exception".toList <:+: response.body.toList := by
  rw [accepts, Bool.or_eq_true, Bool.and_eq_true, beq_iff_eq, Text.occursIn_iff]

theorem removes_iff {response : HttpResponse} :
    removes response = true ↔ response.isSuccess = true ∨ response.status = 404 := by
  rw [removes, Bool.or_eq_true, beq_iff_eq]

/-- The documents of a search are those that the response lists, and none if the index is
missing. -/
theorem gives_readDocuments (response : HttpResponse) :
    Gives (readDocuments response)
      (fun documents => response.status = 404 ∧ documents = [] ∨
        response.isSuccess = true ∧ Envelope.ListsDocuments response.body.toList documents)
      (Error.unavailable (if response.isSuccess then
        "malformed search response: error decoding response body"
        else refusal "search" response)) := by
  unfold readDocuments
  split
  · next hmissing =>
    refine .of_ok fun documents => ?_
    simp [hmissing, isSuccess_of_missing hmissing, eq_comm]
  · next hpresent =>
    cases hsuccess : response.isSuccess with
    | true =>
      rw [if_pos rfl, if_pos rfl]
      refine .of_read ((Tree.parse? response.body.toList).bind Envelope.documents?)
        (fun _ hread => ?_) (fun hread => ?_) fun documents => ?_
      · rw [hread]
      · rw [hread]
      · simp [Envelope.documents?_eq_some_iff, hpresent]
    | false => exact .of_error fun documents => by simp [hpresent]

/-- The names of a listing are those that the response lists. -/
theorem gives_readNames (response : HttpResponse) :
    Gives (readNames response)
      (fun names => response.isSuccess = true ∧ Envelope.ListsNames response.body.toList names)
      (Error.unavailable (if response.isSuccess then
        "malformed index listing: error decoding response body"
        else refusal "list indices" response)) := by
  unfold readNames
  cases hsuccess : response.isSuccess with
  | true =>
    rw [if_pos rfl, if_pos rfl]
    refine .of_read ((Tree.parse? response.body.toList).bind Envelope.indexNames?)
      (fun _ hread => ?_) (fun hread => ?_) fun names => ?_
    · rw [hread]
    · rw [hread]
    · simp [Envelope.indexNames?_eq_some_iff]
  | false => exact .of_error fun names => by simp

/-! ### Calls -/

variable {σ : Type}

theorem ask_of_ok {α : Type} {send : HttpTransport σ} {request : HttpRequest}
    {response : HttpResponse} {s : σ} (h : (send request s).1 = .ok response)
    (read : HttpResponse → Result α) : (ask send request read s).1 = read response := by
  show (send request s).1.bind read = _
  rw [h]
  rfl

/-- An index that is not known to be mapped is made first. If that is refused nothing is sent
further, and otherwise the document is, now that the index is known. -/
theorem index_of_creation {send : HttpTransport σ} {client : HttpClient} {index : String}
    (hmapped : index ∉ client.mapped) (document : Json.Value) {s : σ} {response : HttpResponse}
    (h : (send (client.creation index) s).1 = .ok response) :
    client.index send index document s =
      if accepts response then
        (client.map index).index send index document (send (client.creation index) s).2
      else
        (.error (.storage (.index index (refusal "create index" response))), client,
          (send (client.creation index) s).2) := by
  have hcreate : client.create send index s = (readCreation index response,
      if (readCreation index response).isOk then client.map index else client,
      (send (client.creation index) s).2) := by
    rw [← ask_of_ok h (readCreation index)]
    rfl
  rw [index_of_not_mem hmapped, hcreate]
  unfold readCreation
  cases accepts response with
  | true =>
    have hknown : index ∈ (client.map index).mapped := mem_map.mpr (.inl rfl)
    rw [if_pos rfl, if_pos rfl, index_of_mem hknown]
    rfl
  | false => rfl

/-- **Responses are told apart by status, body and call.** A search gives the documents that a
success lists, as long as they are not too deep, and nothing if the index is missing; a listing
gives the names that a success lists. A document is added by a success and nothing else. An index
is made by a success, and also where it is said to be there; indices are removed by a success,
and also where nothing is there. All other responses are errors: the engine is not available, or
the index or pattern is in error, and the error says which, with the status and the body. An index
that is not known to be mapped is made first, and without that no document is sent. -/
theorem answers_of_response (send : HttpTransport σ) (client : HttpClient) (s : σ)
    (response : HttpResponse) :
    (∀ index query, (send (client.searching index query) s).1 = .ok response →
      Gives (client.search send index query s).1
        (fun documents => response.status = 404 ∧ documents = [] ∨
          response.isSuccess = true ∧ Envelope.ListsDocuments response.body.toList documents)
        (Error.unavailable (if response.isSuccess then
          "malformed search response: error decoding response body"
          else refusal "search" response))) ∧
    ((send client.listing s).1 = .ok response →
      Gives (client.list send s).1
        (fun names => response.isSuccess = true ∧ Envelope.ListsNames response.body.toList names)
        (Error.unavailable (if response.isSuccess then
          "malformed index listing: error decoding response body"
          else refusal "list indices" response))) ∧
    (∀ index document, index ∈ client.mapped →
      (send (client.addition index document) s).1 = .ok response →
      Gives (client.index send index document s).1 (fun _ => response.isSuccess = true)
        (Error.unavailable (refusal "index" response))) ∧
    (∀ index document, index ∉ client.mapped →
      (send (client.creation index) s).1 = .ok response →
      client.index send index document s =
        if accepts response then
          (client.map index).index send index document (send (client.creation index) s).2
        else
          (.error (.storage (.index index (refusal "create index" response))), client,
            (send (client.creation index) s).2)) ∧
    (∀ index, (send (client.creation index) s).1 = .ok response →
      Gives (client.create send index s).1
        (fun _ => response.isSuccess = true ∨ response.status = 400 ∧
          "resource_already_exists_exception".toList <:+: response.body.toList)
        (.storage (.index index (refusal "create index" response)))) ∧
    ∀ pattern, (send (client.removal pattern) s).1 = .ok response →
      Gives (client.delete send pattern s).1
        (fun _ => response.isSuccess = true ∨ response.status = 404)
        (.storage (.index pattern (refusal "delete indices" response))) := by
  refine ⟨fun index query h => ?_, fun h => ?_, fun index document hmapped h => ?_,
    fun index document hmapped h => ?_, fun index h => ?_, fun pattern h => ?_⟩
  · have hanswer : (client.search send index query s).1 = readDocuments response := ask_of_ok h _
    rw [hanswer]
    exact gives_readDocuments response
  · have hanswer : (client.list send s).1 = readNames response := ask_of_ok h _
    rw [hanswer]
    exact gives_readNames response
  · have hanswer : (client.add send index document s).1 = readAddition response := ask_of_ok h _
    rw [index_of_mem hmapped, hanswer]
    exact .of_condition Iff.rfl
  · exact index_of_creation hmapped document h
  · have hanswer : (client.create send index s).1 = readCreation index response := ask_of_ok h _
    rw [hanswer]
    exact .of_condition accepts_iff
  · have hanswer : (client.delete send pattern s).1 = readRemoval pattern response := ask_of_ok h _
    rw [hanswer]
    exact .of_condition removes_iff

/-- A search that found two hits, of which one has no source. -/
theorem answers_of_response_of_hits :
    let client : HttpClient :=
      ⟨.standard, {secure := false, host := "localhost".toList, port := some 9200}, []⟩
    let send : HttpTransport Unit := fun _ s => (.ok ⟨200,
      "\x7b\"took\": 1, \"hits\": \x7b\"hits\": [\x7b\"_source\": [1]\x7d, \x7b\x7d]\x7d\x7d"⟩, s)
    (client.search send "notes" .firstTen ()).1 = .ok [.array [.integer 1], .null] := by
  intro client send
  let one : Tree := .numeral ⟨false, ['1'], none, none⟩
  have hparse : Tree.parse?
      "\x7b\"took\": 1, \"hits\": \x7b\"hits\": [\x7b\"_source\": [1]\x7d, \x7b\x7d]\x7d\x7d".toList =
        some (.object [(Piece.ofString "took", one), (Piece.ofString "hits",
          .object [(Piece.ofString "hits",
            .array [.object [(Piece.ofString "_source", .array [one])], .object []])])]) := rfl
  have hsource : (Tree.array [one]).value? Envelope.documentDepth = some (.array [.integer 1]) := rfl
  obtain ⟨hsearch, -⟩ := answers_of_response send client () _
  refine ((hsearch "notes" .firstTen rfl).ok_iff _).mpr (.inr ⟨rfl, ?_⟩)
  refine Envelope.documents?_eq_some_iff.mp (Option.bind_eq_some_iff.mpr ⟨_, hparse, ?_⟩)
  simp [Envelope.documents?, Envelope.required?, Envelope.field?, Envelope.onlyMember?,
    Tree.text?_ofString, Envelope.document?, hsource]

end HttpClient

end VersionStore
