import VersionStore.Engine.Memory
import VersionStore.Proofs.Dsl
import VersionStore.Proofs.Http.Verdict
import VersionStore.Proofs.Url.Path
import VersionStore.Proofs.Wildcard

/-! A plain search engine behind HTTP.

The server keeps the documents of each index in the order of their arrival. What a request
demands is told by its method and by the names that the segments below the root of the
server spell; queries are taken as the language of search engines means them, and a
pattern as the set of names that it covers. It knows nothing of clients. Where an answer
only has to be of some kind, its status and its text are left to the server, and so is what
becomes of a document for an index that was never made (`Leeway`).

A client is understood: each of its requests demands what it was made for
(`demand?_creation` and the like), and the lists that the server writes are read as they
are (`readDocuments_hits`, `readNames_rows`). -/
namespace VersionStore

open Json (Value Tree Piece)

namespace Reference

/-! ### Demands -/

/-- What a server is asked to do. -/
inductive Demand where
  | make (index : String)
  | add (index : String) (document : Value)
  | find (index : String) (query : Value)
  | remove (pattern : String)
  | list

/-- What a method demands of a place, which a list of names tells. -/
def Demand.of? (method : HttpMethod) (names : List String) (body : Option Value) : Option Demand :=
  match method, names, body with
  | .put, [index], _ => some (.make index)
  | .post, [index, place], some body =>
    if place = "_doc" then some (.add index body)
    else if place = "_search" then some (.find index body)
    else none
  | .delete, [pattern], _ => some (.remove pattern)
  | .get, [first, second], _ => if first = "_cat" ∧ second = "indices" then some .list else none
  | _, _, _ => none

/-- The names that the segments of a path below a root spell. -/
def names? (root path : List (List Char)) : Option (List String) :=
  if root.isPrefixOf path then
    (path.drop root.length).mapM fun segment =>
      (Url.percentDecodeText? segment).map String.ofList
  else none

/-- What a request demands of a server at a root. -/
def demand? (root : List (List Char)) (request : HttpRequest) : Option Demand :=
  (names? root request.url.path).bind fun names => Demand.of? request.method names request.body

/-! ### Answers -/

/-- What is left to a server: its words, where only their kind matters, and what becomes of a
document for an index that is not there. -/
structure Leeway where
  made : String → HttpResponse
  present : String → HttpResponse
  added : String → HttpResponse
  missing : String → HttpResponse
  removed : String → HttpResponse
  stray : String → Value → Table (List Value) → HttpResponse × Table (List Value)
  made_isSuccess : ∀ index, (made index).isSuccess = true
  present_status : ∀ index, (present index).status = 400
  present_content : ∀ index, Text.occursIn "resource_already_exists_exception".toList
    (present index).content.toList = true
  added_isSuccess : ∀ index, (added index).isSuccess = true
  missing_status : ∀ index, (missing index).status = 404
  removed_isSuccess : ∀ pattern, (removed pattern).isSuccess = true
  stray_isFinal : ∀ index document indices, (stray index document indices).1.isFinal = true

/-- The shortest words; a document for an index that is not there is turned down. -/
def Leeway.standard : Leeway where
  made _ := ⟨200, ""⟩
  present _ := ⟨400, "resource_already_exists_exception"⟩
  added _ := ⟨201, ""⟩
  missing _ := ⟨404, ""⟩
  removed _ := ⟨200, ""⟩
  stray _ _ indices := (⟨404, ""⟩, indices)
  made_isSuccess _ := rfl
  present_status _ := rfl
  present_content _ := by decide
  added_isSuccess _ := rfl
  missing_status _ := rfl
  removed_isSuccess _ := rfl
  stray_isFinal _ _ _ := rfl

/-- A list of documents as a search answers it. -/
def hits (documents : List Value) : Value :=
  .object [("hits", .object [("hits", .array (documents.map fun d => .object [("_source", d)]))])]

/-- A list of names as a listing answers it. -/
def rows (names : List String) : Value :=
  .array (names.map fun name => .object [("index", .string name)])

/-- The documents that a query finds, in the order that it asks for. -/
def find? (query : Value) (documents : List Value) : Option (List Value) := do
  let condition ← query.member? "query"
  let keys ← (query.member? "sort").bind SortKey.ofDsls?
  let size ← (query.member? "size").bind Dsl.size?
  let found := documents.filter fun d => Dsl.holds? d condition == some true
  return (stableSort (Query.compareBy keys) found).take size

def meet (leeway : Leeway) (indices : Table (List Value)) :
    Demand → HttpResponse × Table (List Value)
  | .make index =>
    if indices.has index then (leeway.present index, indices)
    else (leeway.made index, indices.put index [])
  | .add index document =>
    match indices.get? index with
    | some documents => (leeway.added index, indices.put index (documents ++ [document]))
    | none => leeway.stray index document indices
  | .find index query =>
    match indices.get? index with
    | none => (leeway.missing index, indices)
    | some documents =>
      match find? query documents with
      | some found => (⟨200, (hits found).text⟩, indices)
      | none => (⟨400, "parsing_exception"⟩, indices)
  | .remove pattern =>
    (leeway.removed pattern,
      indices.filter fun entry => !Wildcard.covers pattern.toList entry.1.toList)
  | .list => (⟨200, (rows indices.keys).text⟩, indices)

/-- The server at a root. -/
def respond (leeway : Leeway) (root : List (List Char)) : HttpServer (Table (List Value)) :=
  fun request indices =>
    match demand? root request with
    | some demand => (some (meet leeway indices demand).1, (meet leeway indices demand).2)
    | none => (some ⟨400, "no handler found"⟩, indices)

/-! ### What a client demands -/

/-- The segments of names are read as these names. -/
theorem names?_segments (root : List (List Char)) (names : List String) :
    names? root (root ++ names.map Url.segment) = some names := by
  have hprefix : root.isPrefixOf (root ++ names.map Url.segment) = true :=
    List.isPrefixOf_iff_prefix.mpr ⟨_, rfl⟩
  have heach : List.Forall₂ (fun segment name =>
      (Url.percentDecodeText? segment).map String.ofList = some name)
      (names.map Url.segment) names :=
    List.forall₂_map_left_iff.mpr (List.forall₂_same.mpr fun name _ => Url.decode_segment name)
  rw [names?, if_pos hprefix, List.drop_left]
  exact Envelope.mapM_eq_some_iff.mpr heach

def root (base : Url) : List (List Char) := Url.withoutTrailingSlash base.path

section
variable {client : HttpClient}

/-- The path of names below the base, for a client that shows its credentials elsewhere. -/
theorem path_url {names : List String} (h : ∀ name ∈ names, Url.IsSegment name) :
    (client.url names).path = root client.base ++ names.map Url.segment := by
  unfold HttpClient.url root
  rw [Url.path_below _ h]
  split <;> rfl

/-- A request for names below the base demands what its method demands of these names. -/
theorem demand?_eq {request : HttpRequest} (names : List String)
    (hpath : request.url.path = (client.url names).path)
    (h : ∀ name ∈ names, Url.IsSegment name) :
    demand? (root client.base) request = Demand.of? request.method names request.body := by
  rw [demand?, hpath, path_url h, names?_segments]
  rfl

/-- The names of places that a client asks for are whole and literal. -/
theorem isSegment_place {name : String} (h : name ∈ ["_doc", "_search", "_cat", "indices"]) :
    Url.IsSegment name := by
  have hplaces : ∀ place ∈ ["_doc", "_search", "_cat", "indices"], Url.IsSegment place := by
    decide +kernel
  exact hplaces name h

variable {index : String}

theorem demand?_creation (h : Url.IsSegment index) :
    demand? (root client.base) (client.creation index) = some (.make index) :=
  demand?_eq [index] rfl (by simpa using h)

theorem demand?_addition (h : Url.IsSegment index) (document : Value) :
    demand? (root client.base) (client.addition index document) = some (.add index document) := by
  refine (demand?_eq [index, "_doc"] ?_ ?_).trans rfl
  · unfold HttpClient.addition
    split <;> rfl
  · simpa using ⟨h, isSegment_place (by simp)⟩

theorem demand?_searching (h : Url.IsSegment index) (query : Query) :
    demand? (root client.base) (client.searching index query) = some (.find index query.toDsl) :=
  (demand?_eq [index, "_search"] rfl (by simpa using ⟨h, isSegment_place (by simp)⟩)).trans rfl

theorem demand?_removal (h : Url.IsSegment index) :
    demand? (root client.base) (client.removal index) = some (.remove index) :=
  demand?_eq [index] rfl (by simpa using h)

theorem demand?_listing : demand? (root client.base) client.listing = some .list :=
  (demand?_eq ["_cat", "indices"] rfl
    (by simpa using ⟨isSegment_place (by simp), isSegment_place (by simp)⟩)).trans rfl

end

theorem isFinal_of_isSuccess {response : HttpResponse} (h : response.isSuccess = true) :
    response.isFinal = true := by
  have hrange := of_decide_eq_true h
  exact decide_eq_true (.inr ⟨hrange.1, by omega⟩)

theorem isFinal_of_status {response : HttpResponse} {status : Nat} (h : response.status = status)
    (hrange : 200 ≤ status ∧ status < 1000) : response.isFinal = true :=
  decide_eq_true (.inr (h ▸ hrange))

/-- Whatever the server says is an answer. -/
theorem isFinal_meet (leeway : Leeway) (indices : Table (List Value)) (demand : Demand) :
    (meet leeway indices demand).1.isFinal = true := by
  cases demand with
  | make index =>
    simp only [meet]
    split
    · exact isFinal_of_status (leeway.present_status index) (by decide)
    · exact isFinal_of_isSuccess (leeway.made_isSuccess index)
  | add index document =>
    simp only [meet]
    split
    · exact isFinal_of_isSuccess (leeway.added_isSuccess index)
    · exact leeway.stray_isFinal ..
  | find index query =>
    simp only [meet]
    split
    · exact isFinal_of_status (leeway.missing_status index) (by decide)
    · split <;> rfl
  | remove pattern => exact isFinal_of_isSuccess (leeway.removed_isSuccess pattern)
  | list => rfl

/-- A demand that can be asked for is met. -/
theorem send_respond {leeway : Leeway} {root : List (List Char)} {request : HttpRequest}
    {demand : Demand} (hasked : request.url.canBeAsked = true)
    (hdemand : demand? root request = some demand) (indices : Table (List Value)) :
    HttpClient.send (respond leeway root) request indices =
      (.ok (meet leeway indices demand).1, (meet leeway indices demand).2) := by
  simp [HttpClient.send, respond, hasked, hdemand, isFinal_meet]

/-! ### What a server writes -/

/-- Whether a document is read as it was written, where the answer to a search holds it. -/
def Travels (document : Value) : Prop :=
  (Tree.parse? document.print).bind (Tree.value? Envelope.documentDepth) = some document

/-- An object with one member holds what the member is read as. -/
theorem holds_member (name : String) (tree : Tree) :
    Envelope.Holds name (.object [(Piece.ofString name, tree)]) tree := by
  have hothers : ∀ other ∈ ([] ++ [] : List (List Piece × Tree)),
      Envelope.IsOther name other.1 := nofun
  exact .member (Tree.text?_ofString name) hothers

/-- The documents of an answer are read as they are. -/
theorem readDocuments_hits {documents : List Value} (h : ∀ d ∈ documents, Travels d) :
    HttpClient.readDocuments ⟨200, (hits documents).text⟩ = .ok documents := by
  let tree (d : Value) : Tree := (Tree.parse? d.print).getD .null
  have htree : ∀ d ∈ documents, (tree d).SpelledBy d.print ∧
      (tree d).value? Envelope.documentDepth = some d := by
    intro d hd
    obtain ⟨t, hparse, hvalue⟩ := Option.bind_eq_some_iff.mp (h d hd)
    have ht : tree d = t := congrArg (Option.getD · .null) hparse
    rw [ht]
    exact ⟨Tree.parse?_eq_some_iff.mp hparse, hvalue⟩
  have hhits : Tree.SpelledBy
      (.array (documents.map fun d => .object [(Piece.ofString "_source", tree d)]))
      (Value.array (documents.map fun d => Value.object [("_source", d)])).print :=
    .array fun d hd => (htree d hd).1.object "_source"
  have hsources : List.Forall₂ Envelope.HoldsDocument
      (documents.map fun d => .object [(Piece.ofString "_source", tree d)]) documents := by
    refine List.forall₂_map_left_iff.mpr (List.forall₂_same.mpr fun d hd => ?_)
    obtain ⟨hdepth, hmeaning⟩ := Tree.value?_eq_some_iff.mp (htree d hd).2
    exact .source (holds_member "_source" (tree d)) hdepth hmeaning
  have hlists : Envelope.ListsDocuments (hits documents).text.toList documents := by
    rw [Value.text, String.toList_ofList]
    exact .hits ((hhits.object "hits").object "hits") (holds_member ..) (holds_member ..) hsources
  exact ((HttpClient.gives_readDocuments _).ok_iff documents).mpr (.inr ⟨rfl, hlists⟩)

/-- The names of a listing are read as they are. -/
theorem readNames_rows (names : List String) :
    HttpClient.readNames ⟨200, (rows names).text⟩ = .ok names := by
  have hrows : Tree.SpelledBy
      (.array (names.map fun name =>
        .object [(Piece.ofString "index", .string (Piece.ofString name))])) (rows names).print :=
    .array fun name _ => (Tree.SpelledBy.string name).object "index"
  have hnames : List.Forall₂ Envelope.HoldsName (names.map fun name =>
      .object [(Piece.ofString "index", .string (Piece.ofString name))]) names :=
    List.forall₂_map_left_iff.mpr (List.forall₂_same.mpr fun name _ =>
      .index (holds_member ..) (Tree.text?_ofString name))
  have hlists : Envelope.ListsNames (rows names).text.toList names := by
    rw [Value.text, String.toList_ofList]
    exact .rows hrows hnames
  exact ((HttpClient.gives_readNames _).ok_iff names).mpr ⟨rfl, hlists⟩

end Reference

end VersionStore
