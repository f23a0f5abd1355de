import VersionStore.Json.Tree

/-! What the answers of a search engine hold.

Documents and index names come wrapped in structures of which only one field matters. A
structure is an object that has this field at most once, whatever else it has, or an array
whose only item stands for the field. What does not matter is only checked for its form. -/
namespace VersionStore.Envelope

open VersionStore.Json (Tree Piece Value)

/-- The only member of an object with a name; the other members need only have good keys. It
fails if there are two. -/
def onlyMember? (name : String) : List (List Piece × Tree) → Option (Option Tree)
  | [] => some none
  | (key, tree) :: rest => do
    let key ← Tree.text? key
    let found ← onlyMember? name rest
    if key = name then
      match found with
      | some _ => none
      | none => some (some tree)
    else some found

/-- The field of a structure with a name, if it is there. -/
def field? (name : String) : Tree → Option (Option Tree)
  | .object members => onlyMember? name members
  | .array [] => some none
  | .array [item] => some (some item)
  | _ => none

/-- The field of a structure with a name, which must be there. -/
def required? (name : String) (tree : Tree) : Option Tree := (field? name tree).bind id

/-- How deep the value of a document in a search response may nest: it is wrapped four times. -/
def documentDepth : Nat := Json.depthLimit - 4

/-- The document of a hit; without one it is null. -/
def document? (hit : Tree) : Option Value :=
  match field? "_source" hit with
  | some (some source) => source.value? documentDepth
  | some none => some .null
  | none => none

def documents? (response : Tree) : Option (List Value) := do
  match ← required? "hits" (← required? "hits" response) with
  | .array hits => hits.mapM document?
  | _ => none

/-- The index that a row of a listing names. -/
def indexName? (row : Tree) : Option String :=
  match required? "index" row with
  | some (.string pieces) => Tree.text? pieces
  | _ => none

def indexNames? : Tree → Option (List String)
  | .array rows => rows.mapM indexName?
  | _ => none

end VersionStore.Envelope
