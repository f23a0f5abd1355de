import VersionStore.Proofs.Engine
import VersionStore.Proofs.Http.Reference
import VersionStore.Proofs.Http.Session

/-! A client of a server answers as an engine in memory does.

A client makes indices on its own accord, takes it for granted that some are there,
translates queries and reads lists out of JSON text. With a plain engine behind HTTP
nothing of this shows: whatever calls are made one after the other, the client answers
what an engine in memory answers. The server and the engine then hold the same indices, and
what the client takes to be mapped is there (`Mirrors`). No call breaks that
(`Mirrors.serve`), which gives the main result, `answers_eq_engine`.

Two things are asked of the calls besides the spelling of their names. A document has to be
read as it was written, and a request has to have a URL that can be asked for: an engine in
memory takes names of any length, and a client does not (`answers_differ_beyond_longest`). -/
namespace VersionStore

open Json (Value)

namespace Request

/-- Whether a text is spelled like a pattern for index names. -/
def isPatternText (cs : List Char) : Bool :=
  !cs.isEmpty && cs.all (fun c => isNameChar c || c == '*') && cs != ['.'] && cs != ['.', '.']

/-- Whether the names and patterns of a call are well spelled. -/
def isSpelled : Request → Bool
  | .index name _ _ _ | .search name _ | .createIndex name => isNamespaceText name.toList
  | .deleteIndices pattern => isPatternText pattern.toList
  | .listIndices => true

def name? : Request → Option String
  | .index name _ _ _ | .search name _ | .createIndex name | .deleteIndices name => some name
  | .listIndices => none

def document? : Request → Option Value
  | .index _ _ _ document => some document
  | _ => none

end Request

/-- The answers to calls that are made one after the other. -/
def answers {σ : Type} (serve : σ → (call : Request) → Result call.Answer × σ) (s : σ) :
    List Request → List ((call : Request) × Result call.Answer)
  | [] => []
  | call :: rest => ⟨call, (serve s call).1⟩ :: answers serve (serve s call).2 rest

/-! ### Names -/

namespace Reference

theorem isDropped_eq_false {c : Char} (h : (isNameChar c || c == '*') = true) :
    Url.isDropped c = false := by
  cases hdropped : Url.isDropped c with
  | false => rfl
  | true =>
    simp only [Url.isDropped, Bool.or_eq_true, beq_iff_eq] at hdropped
    rcases hdropped with (rfl | rfl) | rfl <;> exact absurd h (by decide)

theorem isSegment_of_isPatternText {pattern : String}
    (h : Request.isPatternText pattern.toList = true) : Url.IsSegment pattern := by
  simp only [Request.isPatternText, Bool.and_eq_true, Bool.not_eq_true', List.isEmpty_eq_false_iff,
    List.all_eq_true, bne_iff_ne] at h
  obtain ⟨⟨⟨hnonempty, hall⟩, hhere⟩, habove⟩ := h
  exact ⟨hnonempty, fun c hc => isDropped_eq_false (hall c hc), hhere, habove⟩

/-- Names are patterns, since a name does not start with a dot. -/
theorem isPatternText_of_isNamespaceText {cs : List Char} (h : isNamespaceText cs = true) :
    Request.isPatternText cs = true := by
  cases cs with
  | nil => cases h
  | cons c rest =>
    obtain ⟨hstart, hrest⟩ := Bool.and_eq_true_iff.mp h
    have hc : isNameChar c = true := by
      unfold isNameChar
      rw [show (c.isLower || c.isDigit) = true from hstart]
      rfl
    have hdot : c ≠ '.' := by
      rintro rfl
      exact absurd hstart (by decide)
    have hall : rest.all (fun c => isNameChar c || c == '*') = true := by
      rw [List.all_eq_true] at hrest ⊢
      exact fun d hd => by rw [hrest d hd, Bool.true_or]
    simp [Request.isPatternText, hc, hdot, hall]

/-- What is well spelled is whole and literal. -/
theorem isSegment_of_isSpelled {call : Request} (h : call.isSpelled = true) :
    ∀ name ∈ call.name?, Url.IsSegment name := by
  rintro name hname
  cases call with
  | deleteIndices pattern =>
    cases hname
    exact isSegment_of_isPatternText h
  | listIndices => cases hname
  | _ =>
    cases hname
    exact isSegment_of_isPatternText (isPatternText_of_isNamespaceText h)

/-! ### What the server makes of demands -/

section
variable {leeway : Leeway} {indices : Table (List Value)}

/-- A query finds what it selects. -/
theorem find?_toDsl (query : Query) (documents : List Value) :
    find? query.toDsl documents = some (query.select documents) := by
  simp [find?, Query.filter_toDsl, Query.sort_toDsl, Query.size_toDsl, Filter.holds?_toDsl,
    Query.select]
  rfl

/-- Making an index is accepted, and leaves an index that is there as it is. -/
theorem meet_make (hsorted : indices.Sorted) (index : String) :
    HttpClient.accepts (meet leeway indices (.make index)).1 = true ∧
      (meet leeway indices (.make index)).2 = indices.update index [] id := by
  cases hget : indices.get? index with
  | none =>
    have hmeet : meet leeway indices (.make index) = (leeway.made index, indices.put index []) := by
      simp [meet, Table.has, hget]
    have hupdate : indices.update index [] id = indices.put index [] := by
      rw [Table.update, hget]
      rfl
    rw [hmeet, hupdate]
    refine ⟨?_, rfl⟩
    rw [HttpClient.accepts, leeway.made_isSuccess, Bool.true_or]
  | some documents =>
    have hmeet : meet leeway indices (.make index) = (leeway.present index, indices) := by
      simp [meet, Table.has, hget]
    have hupdate : indices.update index [] id = indices := by
      rw [Table.update, hget]
      exact Table.put_of_get? hsorted hget
    have hbody : (leeway.present index).body = (leeway.present index).content := by
      unfold HttpResponse.body
      rw [leeway.present_status]
      rfl
    rw [hmeet, hupdate]
    refine ⟨?_, rfl⟩
    simp only [HttpClient.accepts, leeway.present_status, hbody, leeway.present_content,
      beq_self_eq_true, Bool.and_self, Bool.or_true]

/-- A search is answered with what the query selects; an index that is missing holds nothing. -/
theorem readDocuments_meet {index : String} {query : Query}
    (h : ∀ d ∈ (indices.get? index).getD [], Travels d) :
    HttpClient.readDocuments (meet leeway indices (.find index query.toDsl)).1 =
      .ok (query.select ((indices.get? index).getD [])) := by
  cases hget : indices.get? index with
  | none =>
    have hmeet : meet leeway indices (.find index query.toDsl) =
        (leeway.missing index, indices) := by simp [meet, hget]
    have hselect : query.select [] = [] := List.take_nil
    rw [hmeet, Option.getD_none, hselect]
    exact if_pos (leeway.missing_status index)
  | some documents =>
    have hmeet : meet leeway indices (.find index query.toDsl) =
        (⟨200, (hits (query.select documents)).text⟩, indices) := by
      simp [meet, hget, find?_toDsl]
    rw [hget] at h
    rw [hmeet]
    exact readDocuments_hits fun d hd => h d (Query.mem_of_mem_select hd).1

theorem meet_find (index : String) (query : Value) :
    (meet leeway indices (.find index query)).2 = indices := by
  simp only [meet]
  split
  · rfl
  · split <;> rfl

/-- A removal takes the indices that an engine in memory removes. -/
theorem meet_remove (pattern : String) :
    (meet leeway indices (.remove pattern)).2 =
      indices.filter fun entry => !wildcardMatches pattern entry.1 := by
  simp only [meet, wildcardMatches_eq]

end

/-! ### What a client makes of the server -/

section
variable {leeway : Leeway} {client : HttpClient} {indices : Table (List Value)}
  {index : String}

/-- The way to a plain engine at a base URL. -/
def sender (leeway : Leeway) (base : Url) : HttpTransport (Table (List Value)) :=
  HttpClient.send (respond leeway (root base))

theorem ask_eq {α : Type} {request : HttpRequest} {demand : Demand}
    (hasked : request.url.canBeAsked = true)
    (hdemand : demand? (root client.base) request = some demand)
    (read : HttpResponse → Result α) :
    HttpClient.ask (sender leeway client.base) request read indices =
      (read (meet leeway indices demand).1, (meet leeway indices demand).2) := by
  unfold HttpClient.ask
  rw [sender, send_respond hasked hdemand]
  rfl

theorem create_eq (hindex : Url.IsSegment index)
    (hasked : (client.creation index).url.canBeAsked = true) (hsorted : indices.Sorted) :
    client.create (sender leeway client.base) index indices =
      (.ok (), client.map index, indices.update index [] id) := by
  obtain ⟨haccepts, hindices⟩ := meet_make hsorted index
  unfold HttpClient.create
  rw [ask_eq hasked (demand?_creation hindex), hindices, HttpClient.readCreation, if_pos haccepts]
  rfl

/-- A document is added to an index that is there. -/
theorem add_eq (hindex : Url.IsSegment index) {document : Value}
    (hasked : (client.addition index document).url.canBeAsked = true)
    (hthere : (indices.get? index).isSome = true) :
    client.add (sender leeway client.base) index document indices =
      (.ok (), client, indices.update index [] (· ++ [document])) := by
  obtain ⟨documents, hget⟩ := Option.isSome_iff_exists.mp hthere
  have hread : HttpClient.readAddition (leeway.added index) = .ok () :=
    if_pos (leeway.added_isSuccess index)
  unfold HttpClient.add Table.update
  rw [ask_eq hasked (demand?_addition hindex document)]
  simp only [meet, hget, hread, Option.getD_some]

theorem search_eq (hindex : Url.IsSegment index) {query : Query}
    (hasked : (client.searching index query).url.canBeAsked = true)
    (h : ∀ d ∈ (indices.get? index).getD [], Travels d) :
    client.search (sender leeway client.base) index query indices =
      (.ok (query.select ((indices.get? index).getD [])), client, indices) := by
  unfold HttpClient.search
  rw [ask_eq hasked (demand?_searching hindex query), readDocuments_meet h, meet_find]

theorem delete_eq {pattern : String} (hpattern : Url.IsSegment pattern)
    (hasked : (client.removal pattern).url.canBeAsked = true) :
    client.delete (sender leeway client.base) pattern indices =
      (.ok (), client.unmap pattern,
        indices.filter fun entry => !wildcardMatches pattern entry.1) := by
  have hremoves : HttpClient.removes (leeway.removed pattern) = true := by
    rw [HttpClient.removes, leeway.removed_isSuccess, Bool.true_or]
  have hread : HttpClient.readRemoval pattern (leeway.removed pattern) = .ok () := if_pos hremoves
  unfold HttpClient.delete
  rw [ask_eq hasked (demand?_removal hpattern), meet_remove]
  simp only [meet, hread]
  rfl

theorem list_eq (hasked : client.listing.url.canBeAsked = true) :
    client.list (sender leeway client.base) indices = (.ok indices.keys, client, indices) := by
  unfold HttpClient.list
  rw [ask_eq hasked demand?_listing]
  simp only [meet, readNames_rows]

/-- An index that is not known to be mapped is made on the way. -/
theorem index_eq (hindex : Url.IsSegment index) {document : Value}
    (hcreation : (client.creation index).url.canBeAsked = true)
    (haddition : (client.addition index document).url.canBeAsked = true)
    (hsorted : indices.Sorted)
    (hthere : index ∈ client.mapped → (indices.get? index).isSome = true) :
    client.index (sender leeway client.base) index document indices =
      (.ok (), if index ∈ client.mapped then client else client.map index,
        indices.update index [] (· ++ [document])) := by
  by_cases hmapped : index ∈ client.mapped
  · rw [HttpClient.index_of_mem hmapped, if_pos hmapped, add_eq hindex haddition (hthere hmapped)]
  · -- to make an index and then add to it is to add to what is there, or to nothing
    have hmade : ((indices.update index [] id).get? index).isSome = true := by
      rw [Table.update, Table.get?_put_self]
      rfl
    have hadd : (client.map index).add (sender leeway client.base) index document
        (indices.update index [] id) = (.ok (), client.map index,
          (indices.update index [] id).update index [] (· ++ [document])) :=
      add_eq hindex haddition hmade
    have htwice : (indices.update index [] id).update index [] (· ++ [document]) =
        indices.update index [] (· ++ [document]) := by
      unfold Table.update
      rw [Table.get?_put_self, Table.put_put]
      rfl
    rw [HttpClient.index_of_not_mem hmapped, if_neg hmapped, create_eq hindex hcreation hsorted]
    exact hadd.trans (by rw [htwice])

end

/-! ### All calls -/

/-- Whether a client and the server that it talks to stand for an engine in memory. -/
structure Mirrors (config : BackendConfig) (base : Url) (client : HttpClient)
    (indices : Table (List Value)) (engine : Engine) : Prop where
  config_eq : client.config = config
  base_eq : client.base = base
  indices_eq : engine.indices = indices
  available : engine.unavailable = false
  sorted : indices.Sorted
  /-- What is taken to be mapped is there. -/
  there : ∀ name ∈ client.mapped, (indices.get? name).isSome = true
  /-- What is kept can be sent back. -/
  travels : ∀ name, ∀ d ∈ (indices.get? name).getD [], Travels d

namespace Mirrors

variable {config : BackendConfig} {base : Url} {client : HttpClient}
  {indices : Table (List Value)} {engine : Engine}

/-- Nothing is mapped at first, and nothing is there. -/
theorem new (config : BackendConfig) (base : Url) :
    Mirrors config base ⟨config, base, []⟩ [] {} where
  config_eq := rfl
  base_eq := rfl
  indices_eq := rfl
  available := rfl
  sorted := .nil
  there := nofun
  travels := nofun

/-- An index may be made, and mapped, and documents that travel may be added to it. -/
theorem update (h : Mirrors config base client indices engine) {index : String}
    {later : HttpClient} (hlater : later = client ∨ later = client.map index)
    {f : List Value → List Value} (hf : ∀ documents, ∀ d ∈ f documents, d ∈ documents ∨ Travels d)
    {engine' : Engine} (hindices : engine'.indices = engine.indices.update index [] f)
    (havailable : engine'.unavailable = engine.unavailable) :
    Mirrors config base later (indices.update index [] f) engine' where
  config_eq := by rcases hlater with rfl | rfl <;> exact h.config_eq
  base_eq := by rcases hlater with rfl | rfl <;> exact h.base_eq
  indices_eq := by rw [hindices, h.indices_eq]
  available := havailable.trans h.available
  sorted := Table.sorted_put _ _ h.sorted
  there := by
    intro name hname
    have hmapped : name = index ∨ name ∈ client.mapped := by
      rcases hlater with rfl | rfl
      · exact .inr hname
      · exact HttpClient.mem_map.mp hname
    rw [Table.update, Table.get?_put]
    split
    · rfl
    · next hne => exact h.there name (hmapped.resolve_left hne)
  travels := by
    intro name d hd
    rw [Table.update, Table.get?_put] at hd
    split at hd
    · rcases hf _ d hd with hkept | htravels
      · exact h.travels index d hkept
      · exact htravels
    · exact h.travels name d hd

/-- Indices may be removed, and forgotten. -/
theorem delete (h : Mirrors config base client indices engine) (pattern : String) :
    Mirrors config base (client.unmap pattern)
      (indices.filter fun entry => !wildcardMatches pattern entry.1) (engine.delete pattern) where
  config_eq := h.config_eq
  base_eq := h.base_eq
  indices_eq := by rw [Engine.delete, h.indices_eq]
  available := h.available
  sorted := h.sorted.filter _
  there := by
    intro name hname
    obtain ⟨hmapped, hkept⟩ := HttpClient.mem_unmap.mp hname
    rw [Table.get?_filter fun name => !wildcardMatches pattern name, hkept]
    exact h.there name hmapped
  travels := by
    intro name d hd
    rw [Table.get?_filter fun name => !wildcardMatches pattern name] at hd
    split at hd
    · exact h.travels name d hd
    · cases hd

/-- Each call is answered as by the engine, and leaves client and server in its image. -/
theorem serve (h : Mirrors config base client indices engine) (leeway : Leeway) {call : Request}
    (hnames : ∀ name ∈ call.name?, Url.IsSegment name)
    (htravels : ∀ document ∈ call.document?, Travels document)
    (hasked : ∀ request ∈ client.requests call, request.url.canBeAsked = true) :
    (client.serveBy (sender leeway base) indices call).1 = (engine.serve call).1 ∧
      Mirrors config base (client.serveBy (sender leeway base) indices call).2.1
        (client.serveBy (sender leeway base) indices call).2.2 (engine.serve call).2 := by
  obtain rfl := h.base_eq
  obtain rfl := h.indices_eq
  cases call with
  | index name classification identifier document =>
    have hserve : client.serveBy (sender leeway client.base) engine.indices
        (.index name classification identifier document) = _ :=
      index_eq (hnames name rfl) (hasked _ (by simp [HttpClient.requests]))
        (hasked _ (by simp [HttpClient.requests])) h.sorted (h.there name)
    rw [hserve]
    simp only [Engine.serve, h.available, Bool.false_eq_true, if_false]
    refine ⟨rfl, h.update ?_ ?_ rfl rfl⟩
    · split
      · exact .inl rfl
      · exact .inr rfl
    · intro documents d hd
      rcases List.mem_append.mp hd with hd | hd
      · exact .inl hd
      · rw [List.mem_singleton.mp hd]
        exact .inr (htravels document rfl)
  | search name query =>
    have hserve : client.serveBy (sender leeway client.base) engine.indices
        (.search name query) = _ :=
      search_eq (hnames name rfl) (hasked _ List.mem_cons_self) (h.travels name)
    rw [hserve]
    simp only [Engine.serve, h.available, Bool.false_eq_true, if_false]
    exact ⟨rfl, {h with indices_eq := rfl, available := rfl}⟩
  | createIndex name =>
    have hserve : client.serveBy (sender leeway client.base) engine.indices
        (.createIndex name) = _ :=
      create_eq (hnames name rfl) (hasked _ List.mem_cons_self) h.sorted
    rw [hserve]
    simp only [Engine.serve, h.available, Bool.false_eq_true, if_false]
    exact ⟨rfl, h.update (.inr rfl) (fun _ _ hd => .inl hd) rfl rfl⟩
  | deleteIndices pattern =>
    have hserve : client.serveBy (sender leeway client.base) engine.indices
        (.deleteIndices pattern) = _ :=
      delete_eq (hnames pattern rfl) (hasked _ List.mem_cons_self)
    rw [hserve]
    simp only [Engine.serve, h.available, Bool.false_eq_true, if_false]
    exact ⟨rfl, h.delete pattern⟩
  | listIndices =>
    have hserve : client.serveBy (sender leeway client.base) engine.indices .listIndices = _ :=
      list_eq (hasked _ List.mem_cons_self)
    rw [hserve]
    simp only [Engine.serve, h.available, Bool.false_eq_true, if_false]
    exact ⟨rfl, h⟩

/-- Calls made one after the other are answered as by the engine. -/
theorem answers_eq {session : HttpSession (Table (List Value))}
    (h : Mirrors config base session.client session.state engine) (leeway : Leeway)
    {calls : List Request} (hnames : ∀ call ∈ calls, ∀ name ∈ call.name?, Url.IsSegment name)
    (htravels : ∀ call ∈ calls, ∀ document ∈ call.document?, Travels document)
    (hasked : ∀ call ∈ calls, ∀ request ∈ session.client.requests call,
      request.url.canBeAsked = true) :
    answers (HttpSession.serve (sender leeway base)) session calls =
      answers Engine.serve engine calls := by
  induction calls generalizing session engine with
  | nil => rfl
  | cons call rest ih =>
    have hfirst : call ∈ call :: rest := List.mem_cons_self
    have hstep := h.serve leeway (hnames call hfirst) (htravels call hfirst) (hasked call hfirst)
    rw [← HttpSession.serve_eq] at hstep
    obtain ⟨hanswer, hmirrors⟩ := hstep
    have hrequests : (session.serve (sender leeway base) call).2.client.requests =
        session.client.requests :=
      HttpClient.requests_congr (hmirrors.config_eq.trans h.config_eq.symm)
        (hmirrors.base_eq.trans h.base_eq.symm)
    have hrest := ih hmirrors (fun other hother => hnames other (List.mem_cons_of_mem _ hother))
      (fun other hother => htravels other (List.mem_cons_of_mem _ hother))
      (fun other hother => hrequests ▸ hasked other (List.mem_cons_of_mem _ hother))
    rw [answers, answers, hanswer, hrest]

end Mirrors

end Reference

open Reference

/-- A client that starts with no mapped index, before a plain engine that starts empty, answers
whatever calls are made as an engine in memory does, if each URL can be asked for. -/
theorem HttpSession.answers_eq_engine (config : BackendConfig) (base : Url) (leeway : Leeway)
    (calls : List Request) (hspelled : ∀ call ∈ calls, call.isSpelled = true)
    (htravels : ∀ call ∈ calls, ∀ document ∈ call.document?, Travels document)
    (hasked : ∀ call ∈ calls, ∀ request ∈ HttpClient.requests ⟨config, base, []⟩ call,
      request.url.canBeAsked = true) :
    answers (HttpSession.serve (sender leeway base)) (.new config base []) calls =
      answers Engine.serve {} calls :=
  (Mirrors.new config base).answers_eq leeway
    (fun call hcall => isSegment_of_isSpelled (hspelled call hcall)) htravels hasked

/-- A document is added, found and removed together with its index. -/
theorem HttpSession.answers_eq_engine_of_notes :
    let base : Url := {secure := false, host := "localhost".toList, port := some 9200}
    let calls : List Request :=
      [.index "notes" "note" "1" (.object [("body", .string "a \"b\""), ("count", .integer 3)]),
       .createIndex "notes", .search "notes" .firstTen, .deleteIndices "no*",
       .search "notes" .firstTen, .createIndex "tasks", .listIndices]
    answers (HttpSession.serve (sender .standard base)) (.new .standard base []) calls =
      answers Engine.serve {} calls := by
  refine HttpSession.answers_eq_engine .standard _ .standard _ (by decide +kernel) ?_
    (by decide +kernel)
  intro call hcall document hdocument
  simp only [List.mem_cons, List.not_mem_nil, or_false] at hcall
  rcases hcall with rfl | rfl | rfl | rfl | rfl | rfl | rfl
  · cases hdocument
    rfl
  all_goals cases hdocument

/-! ### What cannot be asked for -/

theorem HttpClient.create_of_not_asked {σ : Type} (server : HttpServer σ) (client : HttpClient)
    {name : String} (h : (client.creation name).url.canBeAsked = false) (s : σ) :
    client.create (HttpClient.send server) name s =
      (.error (HttpClient.unsent "builder error" (client.creation name)), client, s) := by
  unfold HttpClient.create HttpClient.ask HttpClient.send
  rw [h]
  rfl

/-- An engine in memory makes an index also where a client cannot ask for its URL. -/
theorem HttpSession.answers_ne_of_not_asked {config : BackendConfig} {base : Url} {name : String}
    (h : (HttpClient.creation ⟨config, base, []⟩ name).url.canBeAsked = false) (leeway : Leeway) :
    answers (HttpSession.serve (sender leeway base)) (.new config base []) [.createIndex name] ≠
      answers Engine.serve {} [.createIndex name] := by
  intro hanswers
  have hcreate := HttpClient.create_of_not_asked (respond leeway (root base)) _ h []
  have hclient : ((HttpSession.new config base []).serve (sender leeway base)
      (.createIndex name)).1 =
        .error (HttpClient.unsent "builder error" (HttpClient.creation ⟨config, base, []⟩ name)) :=
    congrArg Prod.fst hcreate
  have hanswer := eq_of_heq (Sigma.mk.inj (List.cons.inj hanswers).1).2
  exact nomatch hclient.symm.trans hanswer

/-- The URL of an index is longer than its name, so some names are too long. -/
theorem HttpClient.canBeAsked_creation (client : HttpClient) {name : String}
    (hname : Url.IsSegment name) (hlong : Url.longest ≤ name.toList.length) :
    (client.creation name).url.canBeAsked = false := by
  have hpath : (client.url [name]).path = root client.base ++ [Url.segment name] :=
    path_url (by simpa using hname)
  have hsegment : name.toList.length ≤ (Url.segment name).length := Url.length_le_percentEncode ..
  have htext := Url.length_pathText_le (client.url [name])
  have hlength : (Url.segment name).length < (Url.pathText (client.url [name]).path).length := by
    rw [hpath, Url.pathText_append_singleton, List.length_append, List.length_cons]
    omega
  have hlonger : ¬(client.creation name).url.text.length ≤ Url.longest := by
    show ¬(client.url [name]).text.length ≤ Url.longest
    omega
  rw [Url.canBeAsked, decide_eq_false hlonger, Bool.and_false]

theorem Request.isSpelled_replicate (n : Nat) :
    (Request.createIndex (String.ofList (List.replicate (n + 1) 'a'))).isSpelled = true := by
  rw [isSpelled, String.toList_ofList, List.replicate_succ]
  refine Bool.and_eq_true_iff.mpr ⟨rfl, List.all_eq_true.mpr fun c hc => ?_⟩
  rw [List.eq_of_mem_replicate hc]
  rfl

/-- Without a bound on the length of URLs a client is not as good as an engine in memory, however
well the names are spelled. -/
theorem HttpSession.answers_differ_beyond_longest :
    ¬∀ (config : BackendConfig) (base : Url) (leeway : Leeway) (calls : List Request),
      (∀ call ∈ calls, call.isSpelled = true) →
      (∀ call ∈ calls, ∀ document ∈ call.document?, Travels document) →
      answers (HttpSession.serve (sender leeway base)) (.new config base []) calls =
        answers Engine.serve {} calls := by
  intro h
  let base : Url := {secure := false, host := "localhost".toList, port := some 9200}
  let client : HttpClient := ⟨.standard, base, []⟩
  have hspelled := Request.isSpelled_replicate 65533
  have hlong : Url.longest ≤ (String.ofList (List.replicate (65533 + 1) 'a')).toList.length := by
    rw [String.toList_ofList, List.length_replicate]
    exact Nat.le_refl _
  have hasked := client.canBeAsked_creation (isSegment_of_isSpelled hspelled _ rfl) hlong
  refine HttpSession.answers_ne_of_not_asked hasked .standard (h .standard base .standard _ ?_ ?_)
  · intro call hcall
    obtain rfl := List.mem_singleton.mp hcall
    exact hspelled
  · intro call hcall document hdocument
    obtain rfl := List.mem_singleton.mp hcall
    cases hdocument

end VersionStore
