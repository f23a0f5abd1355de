import VersionStore.Proofs.Http.Agreement
import VersionStore.Proofs.Url.Segments

/-! Where requests go.

A call names an index, or with a pattern some indices, and whatever the name holds, each
request for it goes to one place: what names are put behind at the base, then the name as
one segment, then the part of the index that the request is about (`path_of_mem_requests`).
A server finds these segments in the text of the URL, since each of them is whole. So two
names never share a place, and no index of a namespace is taken for a part of all indices
(`names_apart`).

The front of a base is its path without an empty segment at the end. One base is different,
that of the path `//`: there both segments are lost (`front_lost_of_two_slashes`). -/
namespace VersionStore

/-- The part of an index that a request for a call is about, unless it is about the index. -/
def Request.part? (call : Request) (method : HttpMethod) : Option String :=
  match call, method with
  | .index .., .post => some "_doc"
  | .search .., _ => some "_search"
  | _, _ => none

/-! ### Names of indices -/

theorem not_reservedInSegment {c : Char} (h : isNameChar c = true) :
    Url.reservedInSegment c = false :=
  of_isNameChar (p := fun c => Url.reservedInSegment c = false) (by decide) h

/-- A name that is spelled like a namespace is its own segment. -/
theorem segment_of_isNamespaceText {name : String} (h : isNamespaceText name.toList = true) :
    Url.segment name = name.toList :=
  Url.percentEncode_eq_self fun _ hc =>
    not_reservedInSegment (isNameChar_of_isNamespaceText h hc)

/-- No part of an index is spelled like a namespace. -/
theorem not_isNamespaceText_part :
    ∀ part ∈ ["_search", "_doc"], isNamespaceText part.toList = false := by decide

/-! ### Requests -/

namespace Reference

theorem isWhole_part :
    ∀ part ∈ ["_search", "_doc"], Url.IsWhole part.toList := by
  decide

theorem part_mem {call : Request} {method : HttpMethod} {part : String}
    (h : call.part? method = some part) : part ∈ ["_search", "_doc"] := by
  unfold Request.part? at h
  split at h
  · cases h
    decide
  · cases h
    decide
  · cases h

/-- What names are put behind is whole if the path of the base is. -/
theorem isWhole_root {base : Url} (h : ∀ s ∈ base.path, Url.IsWhole s) :
    ∀ s ∈ root base, Url.IsWhole s := by
  intro s hs
  unfold root Url.withoutTrailingSlash at hs
  split at hs
  · exact h s ((List.dropLast_sublist _).subset (Url.mem_of_mem_rooted hs))
  · exact h s hs

variable {client : HttpClient} {call : Request} {request : HttpRequest} {name : String}

/-- A request goes below the base, to the name of its call and the part it is about. -/
theorem path_of_mem_requests (hrequest : request ∈ client.requests call)
    (hname : call.name? = some name) (h : Url.IsSegment name) :
    request.url.path = root client.base ++
      Url.segment name :: ((call.part? request.method).map String.toList).toList := by
  have halone : (client.url [name]).path = root client.base ++ [Url.segment name] :=
    path_url (by simpa using h)
  have hpart : ∀ part ∈ ["_doc", "_search"],
      (client.url [name, part]).path = root client.base ++ [Url.segment name, part.toList] := by
    intro part hpart
    have hplace : Url.IsSegment part := isSegment_place (by simp at hpart ⊢; tauto)
    have hsegment : ∀ part ∈ ["_doc", "_search"], Url.segment part = part.toList := by decide
    rw [path_url (by simpa using ⟨h, hplace⟩), List.map_cons, List.map_cons, hsegment part hpart]
    rfl
  cases call with
  | index index classification identifier document =>
    cases hname
    rcases List.mem_cons.mp hrequest with rfl | hrequest
    · exact halone
    · obtain rfl := List.mem_singleton.mp hrequest
      have hpath : (client.addition name document).url.path = (client.url [name, "_doc"]).path := by
        unfold HttpClient.addition
        split <;> rfl
      exact hpath.trans (hpart "_doc" (by simp))
  | search index query =>
    cases hname
    obtain rfl := List.mem_singleton.mp hrequest
    exact hpart "_search" (by simp)
  | createIndex index =>
    cases hname
    obtain rfl := List.mem_singleton.mp hrequest
    exact halone
  | deleteIndices pattern =>
    cases hname
    obtain rfl := List.mem_singleton.mp hrequest
    exact halone
  | listIndices => cases hname

/-- A server finds these segments in the target of the request. -/
theorem segments_of_mem_requests (hbase : ∀ s ∈ client.base.path, Url.IsWhole s)
    (hrequest : request ∈ client.requests call) (hname : call.name? = some name)
    (h : Url.IsSegment name) :
    request.url.segments = client.base.front ++
      Url.segment name :: ((call.part? request.method).map String.toList).toList := by
  have hpath := path_of_mem_requests hrequest hname h
  have hwhole : ∀ s ∈ request.url.path, Url.IsWhole s := by
    intro s hs
    rw [hpath] at hs
    rcases List.mem_append.mp hs with hs | hs
    · exact isWhole_root hbase s hs
    rcases List.mem_cons.mp hs with rfl | hs
    · exact Url.isWhole_segment name
    · obtain ⟨part, hpart, rfl⟩ := Option.map_eq_some_iff.mp (Option.mem_toList.mp hs)
      exact isWhole_part part (part_mem hpart)
  have hne : request.url.path ≠ [] := by
    rw [hpath]
    exact List.append_ne_nil_of_right_ne_nil _ (List.cons_ne_nil _ _)
  rw [Url.segments_eq hwhole, Url.written, if_neg hne, hpath, root,
    Url.withoutTrailingSlash_eq hbase]

end Reference

/-- A client that was made has read its base URL, and knows no index. -/
theorem HttpClient.of_make {config : BackendConfig} {client : HttpClient}
    (h : make config = .ok client) :
    Url.parse config.trimmedUrl = .ok client.base ∧ client.mapped = [] := by
  unfold make at h
  split at h
  · cases h
  · split at h
    · cases h
    · next base hparse =>
      cases h
      exact ⟨hparse, rfl⟩

namespace HttpSession

open Reference

variable {σ : Type}

/-- A new client has sent nothing but what its calls ask for. -/
theorem request_mem {client : HttpClient} (hnew : client.mapped = []) {send : HttpTransport σ}
    {s : σ} {calls : List Request} {e : Exchange}
    (h : e ∈ ((⟨client, s, []⟩ : HttpSession σ).run send calls).log) :
    e.request ∈ client.requests e.call := by
  obtain ⟨config, base, mapped⟩ := client
  obtain rfl : mapped = [] := hnew
  obtain ⟨before, after, hlog⟩ := List.append_of_mem h
  exact ((Consistent.new config base s).run send calls).sent before e after hlog |>.1

/-- **Names do not share places.** Whatever a client is called for, and whatever becomes of its
requests: each of them for a name that is whole goes to the front of the base, one segment that
decodes to the name, and the part of the index that is asked for. -/
theorem names_apart {config : BackendConfig} {client : HttpClient}
    (hmake : HttpClient.make config = .ok client) (send : HttpTransport σ) (s : σ)
    (calls : List Request) :
    let log := ((⟨client, s, []⟩ : HttpSession σ).run send calls).log
    (∀ e ∈ log, ∀ name, e.call.name? = some name → Url.IsSegment name →
      ∃ segment, (Url.percentDecodeText? segment).map String.ofList = some name ∧
        e.request.url.segments = client.base.front ++
          segment :: ((e.call.part? e.request.method).map String.toList).toList) ∧
    (∀ e ∈ log, ∀ name, e.call.name? = some name → Url.IsSegment name →
      ∀ other ∈ log, ∀ another, other.call.name? = some another → Url.IsSegment another →
        e.request.url.segments = other.request.url.segments → name = another) ∧
    ∀ (ns : Namespace) (settings : StoreConfig), settings.validate = .ok () →
      Url.IsSegment (ns.indexName settings.suffix) ∧
      ∀ e ∈ log, e.call.name? = some (ns.indexName settings.suffix) →
        ∀ part ∈ ["_search", "_doc"], e.request.url.segments ≠ [part.toList] ∧
          e.request.url.segments ≠ client.base.front ++ [part.toList] := by
  obtain ⟨hparse, hnew⟩ := HttpClient.of_make hmake
  intro log
  have hsegments : ∀ e ∈ log, ∀ name, e.call.name? = some name → Url.IsSegment name →
      e.request.url.segments = client.base.front ++
        Url.segment name :: ((e.call.part? e.request.method).map String.toList).toList :=
    fun e he name hname =>
      segments_of_mem_requests (Url.isWhole_of_parse hparse) (request_mem hnew he) hname
  refine ⟨fun e he name hname h => ?_, fun e he name hname h other hother another hanother h' heq =>
    ?_, fun ns settings hvalid => ?_⟩
  · exact ⟨Url.segment name, Url.decode_segment name, hsegments e he name hname h⟩
  · rw [hsegments e he name hname h, hsegments other hother another hanother h'] at heq
    exact Url.segment_injective (List.cons.inj (List.append_cancel_left heq)).1
  · have hspelled : isNamespaceText (ns.indexName settings.suffix).toList = true :=
      ns.isNamespaceText_indexName (StoreConfig.validate_eq_ok_iff.mp hvalid).2.2
    have hwhole : Url.IsSegment (ns.indexName settings.suffix) :=
      isSegment_of_isPatternText (isPatternText_of_isNamespaceText hspelled)
    refine ⟨hwhole, fun e he hname part hpart => ?_⟩
    -- the name is a segment of its own, and no part is spelled like it
    have hne : Url.segment (ns.indexName settings.suffix) ≠ part.toList := by
      rw [segment_of_isNamespaceText hspelled]
      intro heq
      rw [heq, not_isNamespaceText_part part hpart] at hspelled
      cases hspelled
    rw [hsegments e he _ hname hwhole]
    constructor
    · intro heq
      have hmem : Url.segment (ns.indexName settings.suffix) ∈ [part.toList] :=
        heq ▸ List.mem_append_right _ List.mem_cons_self
      exact hne (List.mem_singleton.mp hmem)
    · intro heq
      exact hne (List.cons.inj (List.append_cancel_left heq)).1

/-- A search for a name that would leave the base stays below it. -/
theorem names_apart_of_escape :
    ∃ client, HttpClient.make ⟨"http://[::1]:9200/es/", false, none, none⟩ = .ok client ∧
      Url.IsSegment "../_all?x#%2F\\" ∧
      ∀ send : HttpTransport Unit, ∀ e ∈ ((⟨client, (), []⟩ : HttpSession Unit).run send
        [.search "../_all?x#%2F\\" .firstTen]).log,
          ∃ segment,
            (Url.percentDecodeText? segment).map String.ofList = some "../_all?x#%2F\\" ∧
            e.request.url.segments = ["es".toList, segment, "_search".toList] := by
  have hmake : HttpClient.make ⟨"http://[::1]:9200/es/", false, none, none⟩ =
      .ok ⟨⟨"http://[::1]:9200/es/", false, none, none⟩,
        ⟨false, [], none, "[::1]".toList, some 9200, ["es".toList, []], none, none⟩, []⟩ := rfl
  have hname : Url.IsSegment "../_all?x#%2F\\" := by decide
  refine ⟨_, hmake, hname, fun send e he => ?_⟩
  obtain ⟨hplaces, -⟩ := names_apart hmake send () [.search "../_all?x#%2F\\" .firstTen]
  obtain rfl : e = ⟨.search "../_all?x#%2F\\" .firstTen, _, _⟩ := List.mem_singleton.mp he
  have hfront : Url.front
      ⟨false, [], none, "[::1]".toList, some 9200, ["es".toList, []], none, none⟩ =
        ["es".toList] := by decide
  obtain ⟨segment, hdecode, hsegments⟩ := hplaces _ he _ rfl hname
  exact ⟨segment, hdecode, hsegments.trans (by rw [hfront]; rfl)⟩

/-- Of two slashes in a base nothing is left: a name is not put behind the first of its segments,
although only the second one is an empty segment at the end. -/
theorem front_lost_of_two_slashes :
    ¬∀ (config : BackendConfig) (client : HttpClient), HttpClient.make config = .ok client →
      ∀ name, Url.IsSegment name → ∀ request ∈ client.requests (.createIndex name),
        ∃ segment, (Url.percentDecodeText? segment).map String.ofList = some name ∧
          request.url.segments = Url.trimmed client.base.segments ++ [segment] := by
  intro h
  let base : Url := {secure := false, host := "[::1]".toList, path := [[], []]}
  let client : HttpClient := ⟨⟨"http://[::1]//", false, none, none⟩, base, []⟩
  have hmake : HttpClient.make ⟨"http://[::1]//", false, none, none⟩ =
      .ok ⟨⟨"http://[::1]//", false, none, none⟩,
        ⟨false, [], none, "[::1]".toList, none, [[], []], none, none⟩, []⟩ := rfl
  have hname : Url.IsSegment "x" := by decide
  obtain ⟨segment, -, hsegments⟩ :=
    h _ client hmake "x" hname (client.creation "x") List.mem_cons_self
  have hrequest : (client.creation "x").url.segments = ["x".toList] := by decide
  have hbase : Url.trimmed base.segments = [[]] := by decide
  rw [hrequest, show client.base = base from rfl, hbase] at hsegments
  cases hsegments

end HttpSession

end VersionStore
