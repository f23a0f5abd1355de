import VersionStore.Engine.Memory
import VersionStore.Proofs.Query.Order

/-! What a search selects.

Where the order of a query is a total preorder on the documents that pass its filter, a
search returns the first of them, as many as the limit admits (`IsTop`): in order, those
that the keys do not tell apart as they stand in the index, and with nothing left out that
comes before what is returned (`search_selects_top`). So a larger limit only adds documents
at the end. It is a total preorder in particular if the documents have words only, or texts
only, in each field that they are sorted by (`SortKey.IsUniform`). -/
namespace VersionStore

/-! ### The first items of a list -/

section
variable {α : Type} {compare : α → α → Ordering} {items : List α}

/-- Whether some items are the first of a list, as many as a limit admits. -/
structure IsTop (compare : α → α → Ordering) (limit : Nat) (items top : List α) : Prop where
  length : top.length = min limit items.length
  /-- No item stands in front of one that it comes after. -/
  ordered : top.Pairwise fun a b => compare a b ≠ .gt
  /-- Of the items that are not told apart, the top has those that the list has first. -/
  stable : ∀ a ∈ items, top.filter (compare · a == .eq) <+: items.filter (compare · a == .eq)
  /-- The list holds these items and others, none of which comes before one of these. -/
  left : ∃ rest, (top ++ rest).Perm items ∧ ∀ a ∈ top, ∀ b ∈ rest, compare b a ≠ .lt

theorem isTop_take_stableSort (h : OrderedOn compare items) (limit : Nat) :
    IsTop compare limit items ((stableSort compare items).take limit) := by
  have hperm := stableSort_perm compare items
  have hsorted := pairwise_stableSort h
  have hparts : (stableSort compare items).take limit ++ (stableSort compare items).drop limit =
      stableSort compare items := List.take_append_drop ..
  refine ⟨?_, ?_, fun a ha => ?_, (stableSort compare items).drop limit, ?_, fun a ha b hb => ?_⟩
  · rw [List.length_take, hperm.length_eq]
  · refine (hsorted.sublist (List.take_sublist ..)).imp fun hle hgt => ?_
    rw [hgt] at hle
    cases hle
  · rw [← filter_stableSort h ha fun _ hb => hb]
    exact (List.take_prefix ..).filter _
  · rw [hparts]
    exact hperm
  · rw [← hparts, List.pairwise_append] at hsorted
    have hle := hsorted.2.2 a ha b hb
    rw [h.swap a (mem_stableSort.mp (List.mem_of_mem_take ha)) b
      (mem_stableSort.mp (List.mem_of_mem_drop hb))]
    intro hlt
    rw [Ordering.swap_eq_lt.mp hlt] at hle
    cases hle

end

/-! ### Documents in order -/

/-- Whether a field has values of one kind in some documents: signed words where it is there, or
texts where it is there. -/
def SortKey.IsUniform (key : SortKey) (documents : List Json.Value) : Prop :=
  (∀ d ∈ documents, ∀ v, d.member? key.field = some v →
    ∃ n, v = .integer n ∧ Word.isSigned n = true) ∨
  ∀ d ∈ documents, ∀ v, d.member? key.field = some v → ∃ s, v = .string s

/-- No value hides the order of others of its kind. -/
theorem SortKey.IsUniform.orderedOn {key : SortKey} {documents : List Json.Value}
    (h : key.IsUniform documents) : OrderedOn key.compare documents := by
  rw [key.orderedOn_iff]
  rintro a ha b hb c hc ⟨x, y, z, hx, hy, hz, hides⟩
  rcases h with hwords | htexts
  · obtain ⟨m, rfl, -⟩ := hwords a ha x hx
    obtain ⟨n, rfl, hn⟩ := hwords b hb y hy
    cases hides with
    | kind told other => cases other
    | rounding wide => rw [Json.Number.signed?_eq_some_iff.mpr ⟨rfl, hn⟩] at wide; cases wide
  · obtain ⟨s, rfl⟩ := htexts a ha x hx
    obtain ⟨t, rfl⟩ := htexts b hb y hy
    cases hides with
    | kind told other => cases other

/-! ### Searches -/

def Engine.matching (engine : Engine) (index : String) (query : Query) : List Json.Value :=
  (engine.documents index).filter (Filter.accepts · query.filter)

/-- A search that is served selects among the documents that it is about. -/
theorem Engine.serve_search_eq (engine : Engine) (index : String) (query : Query) :
    (engine.serve (.search index query)).1 =
      if engine.unavailable then .error outage
      else .ok ((stableSort query.compare (engine.matching index query)).take
        query.limit.toNat) := by
  unfold serve
  split <;> rfl

/-- **What a search selects.** Let the order of a query be a total preorder on the documents that
pass its filter. A search is refused by an engine that serves nothing, or it returns the
first of these documents, as many as the limit admits; with a larger limit it returns the
same, and more behind that. The order is a total preorder if the documents have values of one
kind, words or texts, in each field that they are sorted by and where they have it. -/
theorem Engine.search_selects_top (engine : Engine) (index : String) (query : Query) :
    let matching := engine.matching index query
    (OrderedOn query.compare matching → ∃ found,
      (engine.serve (.search index query)).1 =
        (if engine.unavailable then .error outage else .ok found) ∧
      IsTop query.compare query.limit.toNat matching found ∧
      ∀ limit, query.limit ≤ limit → ∃ further,
        (engine.serve (.search index {query with limit := limit})).1 =
          (if engine.unavailable then .error outage else .ok further) ∧
        found <+: further) ∧
    ((∀ key ∈ query.sort, key.IsUniform matching) → OrderedOn query.compare matching) := by
  intro matching
  constructor
  · intro hordered
    refine ⟨_, engine.serve_search_eq index query, isTop_take_stableSort hordered _, ?_⟩
    intro limit hlimit
    refine ⟨_, engine.serve_search_eq index {query with limit := limit}, ?_⟩
    exact List.take_prefix_take_left (UInt64.le_iff_toNat_le.mp hlimit)
  · intro huniform
    exact Query.orderedOn_compareBy fun key hkey => (huniform key hkey).orderedOn

/-- Two documents that the key does not tell apart, one without the field, and one that does not
pass the filter. -/
theorem Engine.search_selects_top_of_ties :
    let document := fun (n : Int) (kind : String) =>
      Json.Value.object [("kind", .string kind), ("n", .integer n)]
    let without := Json.Value.object [("kind", .string "x")]
    let engine : Engine :=
      {indices := [("a", [document 2 "x", without, document 7 "y", document 1 "x", document 2 "x"])]}
    let query : Query := ⟨.term "kind" (.string "x"), [⟨"n", .descending⟩], 3⟩
    engine.matching "a" query = [document 2 "x", without, document 1 "x", document 2 "x"] ∧
    ∃ found, (engine.serve (.search "a" query)).1 = .ok found ∧
      IsTop query.compare 3 (engine.matching "a" query) found ∧ found.length = 3 := by
  intro document without engine query
  have hmatching : engine.matching "a" query =
      [document 2 "x", without, document 1 "x", document 2 "x"] := by
    simp [engine, query, document, without, Engine.matching, Engine.documents, Table.get?,
      Filter.accepts, Json.Value.member?, Json.Value.agrees]
  have huniform : ∀ key ∈ query.sort, key.IsUniform (engine.matching "a" query) := by
    intro key hkey
    obtain rfl := List.mem_singleton.mp hkey
    refine .inl fun d hd v hv => ?_
    rw [hmatching] at hd
    simp only [List.mem_cons, List.not_mem_nil, or_false] at hd
    rcases hd with rfl | rfl | rfl | rfl
    · exact ⟨2, (Option.some.inj hv).symm, by decide⟩
    · cases hv
    · exact ⟨1, (Option.some.inj hv).symm, by decide⟩
    · exact ⟨2, (Option.some.inj hv).symm, by decide⟩
  obtain ⟨hselects, hordered⟩ := engine.search_selects_top "a" query
  obtain ⟨found, hfound, htop, -⟩ := hselects (hordered huniform)
  refine ⟨hmatching, found, hfound, htop, ?_⟩
  rw [htop.length, hmatching]
  rfl

end VersionStore
