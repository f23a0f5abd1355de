import Mathlib.Data.List.Forall2
import VersionStore.Http.Envelope
import VersionStore.Proofs.Json.Depth
import VersionStore.Proofs.Json.Grammar

/-! What answers hold.

What a response lists is said by the text of its body alone: that a structure has a field,
whatever else it has (`Holds`), that it lacks it (`Lacks`), and from there on which
documents a search lists (`ListsDocuments`) and which names a listing (`ListsNames`). These
are what is read (`documents?_eq_some_iff`, `indexNames?_eq_some_iff`). -/
namespace VersionStore.Envelope

open VersionStore.Json (Tree Piece Value)

/-! ### Structures -/

/-- Whether a key is a text other than a name. -/
def IsOther (name : String) (key : List Piece) : Prop :=
  ∃ text, Tree.text? key = some text ∧ text ≠ name

/-- Whether a structure holds a tree in the field of a name. -/
inductive Holds (name : String) : Tree → Tree → Prop
  | member {before after : List (List Piece × Tree)} {key : List Piece} {field : Tree}
    (hkey : Tree.text? key = some name)
    (hothers : ∀ other ∈ before ++ after, IsOther name other.1) :
    Holds name (.object (before ++ (key, field) :: after)) field
  | item {field : Tree} : Holds name (.array [field]) field

/-- Whether a structure lacks the field of a name. -/
inductive Lacks (name : String) : Tree → Prop
  | members {members : List (List Piece × Tree)}
    (h : ∀ other ∈ members, IsOther name other.1) : Lacks name (.object members)
  | empty : Lacks name (.array [])

variable {name : String}

section
variable {key : List Piece} {tree : Tree} {rest : List (List Piece × Tree)}

theorem onlyMember?_cons : onlyMember? name ((key, tree) :: rest) =
    (Tree.text? key).bind fun text => (onlyMember? name rest).bind fun found =>
      if text = name then
        match found with
        | some _ => none
        | none => some (some tree)
      else some found := rfl

/-- The first member has another name if the search goes on behind it. -/
theorem onlyMember?_cons_of_isOther (h : IsOther name key) :
    onlyMember? name ((key, tree) :: rest) = onlyMember? name rest := by
  obtain ⟨text, htext, hne⟩ := h
  rw [onlyMember?_cons, htext, Option.bind_some]
  cases onlyMember? name rest with
  | none => rfl
  | some found => exact if_neg hne

/-- If the first member has the name, no other one may have it. -/
theorem onlyMember?_cons_of_name (h : Tree.text? key = some name) {found : Option Tree} :
    onlyMember? name ((key, tree) :: rest) = some found ↔
      onlyMember? name rest = some none ∧ found = some tree := by
  rw [onlyMember?_cons, h, Option.bind_some]
  rcases onlyMember? name rest with _ | _ | other <;> simp [eq_comm]

theorem onlyMember?_cons_of_none (h : Tree.text? key = none) :
    onlyMember? name ((key, tree) :: rest) = none := by
  rw [onlyMember?_cons, h]
  rfl

theorem key_cases (name : String) (key : List Piece) :
    Tree.text? key = none ∨ Tree.text? key = some name ∨ IsOther name key := by
  cases htext : Tree.text? key with
  | none => exact .inl rfl
  | some text =>
    by_cases hname : text = name
    · exact .inr (.inl (congrArg some hname))
    · exact .inr (.inr ⟨text, htext, hname⟩)

theorem not_isOther (h : Tree.text? key = some name) : ¬IsOther name key := by
  rintro ⟨text, htext, hne⟩
  exact hne (Option.some.inj (htext.symm.trans h))

end

theorem onlyMember?_eq_some_none_iff {members : List (List Piece × Tree)} :
    onlyMember? name members = some none ↔ ∀ other ∈ members, IsOther name other.1 := by
  induction members with
  | nil => simp [onlyMember?]
  | cons member rest ih =>
    obtain ⟨key, tree⟩ := member
    rw [List.forall_mem_cons, ← ih]
    rcases key_cases name key with hkey | hkey | hkey
    · have hother : ¬IsOther name key := fun ⟨_, htext, _⟩ => nomatch hkey.symm.trans htext
      simp [onlyMember?_cons_of_none hkey, hother]
    · simp [onlyMember?_cons_of_name hkey, not_isOther hkey]
    · simp [onlyMember?_cons_of_isOther hkey, hkey]

theorem onlyMember?_eq_some_some_iff {members : List (List Piece × Tree)} {field : Tree} :
    onlyMember? name members = some (some field) ↔
      ∃ before key after, members = before ++ (key, field) :: after ∧
        Tree.text? key = some name ∧ ∀ other ∈ before ++ after, IsOther name other.1 := by
  constructor
  · intro h
    induction members with
    | nil => cases h
    | cons member rest ih =>
      obtain ⟨key, tree⟩ := member
      rcases key_cases name key with hkey | hkey | hkey
      · rw [onlyMember?_cons_of_none hkey] at h
        cases h
      · obtain ⟨hrest, htree⟩ := (onlyMember?_cons_of_name hkey).mp h
        cases htree
        exact ⟨[], key, rest, rfl, hkey, onlyMember?_eq_some_none_iff.mp hrest⟩
      · rw [onlyMember?_cons_of_isOther hkey] at h
        obtain ⟨before, found, after, rfl, hfound, hothers⟩ := ih h
        exact ⟨(key, tree) :: before, found, after, rfl, hfound,
          List.forall_mem_cons.mpr ⟨hkey, hothers⟩⟩
  · rintro ⟨before, key, after, rfl, hkey, hothers⟩
    induction before with
    | nil =>
      rw [List.nil_append, onlyMember?_cons_of_name hkey]
      exact ⟨onlyMember?_eq_some_none_iff.mpr hothers, rfl⟩
    | cons member before ih =>
      obtain ⟨hmember, hothers⟩ := List.forall_mem_cons.mp hothers
      rw [List.cons_append, onlyMember?_cons_of_isOther hmember]
      exact ih hothers

theorem field?_eq_some_some_iff {tree field : Tree} :
    field? name tree = some (some field) ↔ Holds name tree field := by
  cases tree with
  | object members =>
    refine onlyMember?_eq_some_some_iff.trans ⟨?_, fun h => ?_⟩
    · rintro ⟨before, key, after, rfl, hkey, hothers⟩
      exact .member hkey hothers
    · cases h with
      | member hkey hothers => exact ⟨_, _, _, rfl, hkey, hothers⟩
  | array items =>
    rcases items with _ | ⟨item, _ | ⟨_, _⟩⟩
    · exact ⟨nofun, nofun⟩
    · refine ⟨fun h => ?_, fun h => ?_⟩
      · obtain rfl := Option.some.inj (Option.some.inj h)
        exact .item
      · cases h
        rfl
    · exact ⟨nofun, nofun⟩
  | _ => exact ⟨nofun, nofun⟩

theorem field?_eq_some_none_iff {tree : Tree} :
    field? name tree = some none ↔ Lacks name tree := by
  cases tree with
  | object members =>
    refine onlyMember?_eq_some_none_iff.trans ⟨.members, fun h => ?_⟩
    cases h with
    | members hothers => exact hothers
  | array items =>
    rcases items with _ | ⟨item, _ | ⟨_, _⟩⟩
    · exact ⟨fun _ => .empty, fun _ => rfl⟩
    · exact ⟨nofun, nofun⟩
    · exact ⟨nofun, nofun⟩
  | _ => exact ⟨nofun, nofun⟩

theorem required?_eq_some_iff {tree field : Tree} :
    required? name tree = some field ↔ Holds name tree field := by
  rw [required?, ← field?_eq_some_some_iff, Option.bind_eq_some_iff]
  simp

/-! ### Lists -/

/-- Whether a hit holds a document: its source, of which the depth is bounded, or null without
one. -/
inductive HoldsDocument : Tree → Value → Prop
  | source {hit source : Tree} {document : Value} (hsource : Holds "_source" hit source)
    (hdepth : source.depth ≤ documentDepth) (hdocument : source.meaning? = some document) :
    HoldsDocument hit document
  | null {hit : Tree} (h : Lacks "_source" hit) : HoldsDocument hit .null

/-- Whether a row names an index. -/
inductive HoldsName : Tree → String → Prop
  | index {row : Tree} {pieces : List Piece} {name : String}
    (hindex : Holds "index" row (.string pieces)) (hname : Tree.text? pieces = some name) :
    HoldsName row name

/-- Whether the text of a response lists documents. -/
inductive ListsDocuments : List Char → List Value → Prop
  | hits {text : List Char} {response envelope : Tree} {hits : List Tree} {documents : List Value}
    (htext : Tree.SpelledBy response text) (hresponse : Holds "hits" response envelope)
    (henvelope : Holds "hits" envelope (.array hits))
    (hhits : List.Forall₂ HoldsDocument hits documents) : ListsDocuments text documents

/-- Whether the text of a response lists names. -/
inductive ListsNames : List Char → List String → Prop
  | rows {text : List Char} {rows : List Tree} {names : List String}
    (htext : Tree.SpelledBy (.array rows) text) (hrows : List.Forall₂ HoldsName rows names) :
    ListsNames text names

/-- A list is read if each item is. -/
theorem mapM_eq_some_iff {α β : Type} {read? : α → Option β} {items : List α} {results : List β} :
    items.mapM read? = some results ↔
      List.Forall₂ (fun item result => read? item = some result) items results := by
  induction items generalizing results with
  | nil =>
    rw [List.mapM_nil, List.forall₂_nil_left_iff]
    exact ⟨fun h => (Option.some.inj h).symm, congrArg some ∘ Eq.symm⟩
  | cons item rest ih =>
    rw [List.mapM_cons, List.forall₂_cons_left_iff, Option.bind_eq_bind, Option.bind_eq_some_iff]
    constructor
    · rintro ⟨result, hitem, h⟩
      obtain ⟨results, hrest, h⟩ := Option.bind_eq_some_iff.mp h
      cases h
      exact ⟨result, results, hitem, ih.mp hrest, rfl⟩
    · rintro ⟨result, results, hitem, hrest, rfl⟩
      exact ⟨result, hitem, Option.bind_eq_some_iff.mpr ⟨results, ih.mpr hrest, rfl⟩⟩

theorem document?_eq_some_iff {hit : Tree} {document : Value} :
    document? hit = some document ↔ HoldsDocument hit document := by
  unfold document?
  constructor
  · intro h
    split at h
    · next source hsource =>
      obtain ⟨hdepth, hdocument⟩ := Tree.value?_eq_some_iff.mp h
      exact .source (field?_eq_some_some_iff.mp hsource) hdepth hdocument
    · next hnone =>
      cases h
      exact .null (field?_eq_some_none_iff.mp hnone)
    · cases h
  · intro h
    cases h with
    | source hsource hdepth hdocument =>
      rw [field?_eq_some_some_iff.mpr hsource]
      exact Tree.value?_eq_some_iff.mpr ⟨hdepth, hdocument⟩
    | null h => rw [field?_eq_some_none_iff.mpr h]

theorem indexName?_eq_some_iff {row : Tree} {index : String} :
    indexName? row = some index ↔ HoldsName row index := by
  unfold indexName?
  constructor
  · intro h
    split at h
    · next pieces hindex => exact .index (required?_eq_some_iff.mp hindex) h
    · cases h
  · rintro ⟨hindex, hname⟩
    rw [required?_eq_some_iff.mpr hindex]
    exact hname

/-- The documents that are read from a response are those that it lists. -/
theorem documents?_eq_some_iff {text : List Char} {documents : List Value} :
    (Tree.parse? text).bind documents? = some documents ↔ ListsDocuments text documents := by
  rw [Option.bind_eq_some_iff]
  constructor
  · rintro ⟨response, htext, h⟩
    obtain ⟨envelope, hresponse, h⟩ := Option.bind_eq_some_iff.mp h
    obtain ⟨list, henvelope, h⟩ := Option.bind_eq_some_iff.mp h
    cases list with
    | array hits =>
      refine .hits (Tree.parse?_eq_some_iff.mp htext) (required?_eq_some_iff.mp hresponse)
        (required?_eq_some_iff.mp henvelope) ?_
      exact (mapM_eq_some_iff.mp h).imp fun _ _ => document?_eq_some_iff.mp
    | _ => cases h
  · rintro ⟨htext, hresponse, henvelope, hhits⟩
    refine ⟨_, Tree.parse?_eq_some_iff.mpr htext, ?_⟩
    unfold documents?
    rw [required?_eq_some_iff.mpr hresponse]
    show (required? "hits" _).bind _ = _
    rw [required?_eq_some_iff.mpr henvelope]
    exact mapM_eq_some_iff.mpr (hhits.imp fun _ _ => document?_eq_some_iff.mpr)

/-- The names that are read from a response are those that it lists. -/
theorem indexNames?_eq_some_iff {text : List Char} {names : List String} :
    (Tree.parse? text).bind indexNames? = some names ↔ ListsNames text names := by
  rw [Option.bind_eq_some_iff]
  constructor
  · rintro ⟨listing, htext, h⟩
    cases listing with
    | array rows =>
      exact .rows (Tree.parse?_eq_some_iff.mp htext)
        ((mapM_eq_some_iff.mp h).imp fun _ _ => indexName?_eq_some_iff.mp)
    | _ => cases h
  · rintro ⟨htext, hrows⟩
    exact ⟨_, Tree.parse?_eq_some_iff.mpr htext,
      mapM_eq_some_iff.mpr (hrows.imp fun _ _ => indexName?_eq_some_iff.mpr)⟩

end VersionStore.Envelope
