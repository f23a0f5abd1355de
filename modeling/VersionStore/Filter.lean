import VersionStore.Json.Value
import VersionStore.Text.Affix

/-! Filters over documents.

A filter is a tree, not query text, so no value in it can be taken for structure. A
document that lacks a field fails every test of that field. -/
namespace VersionStore

/-- A condition on documents. -/
inductive Filter where
  /-- A field has a value. -/
  | term (field : String) (value : Json.Value)
  /-- A field is a string that starts with a text. -/
  | start (field : String) (text : String)
  /-- All conditions hold; without any, every document passes. -/
  | all (filters : List Filter)
  /-- Some condition holds; without any, no document passes. -/
  | any (filters : List Filter)
  /-- A condition does not hold. -/
  | not (filter : Filter)

namespace Filter

mutual

def accepts (document : Json.Value) : Filter → Bool
  | .term field value =>
    match document.member? field with
    | some found => found.agrees value
    | none => false
  | .start field text =>
    match (document.member? field).bind Json.Value.string? with
    | some found => Text.startsWith found text
    | none => false
  | .all filters => acceptsAll document filters
  | .any filters => acceptsAny document filters
  | .not filter => !accepts document filter

def acceptsAll (document : Json.Value) : List Filter → Bool
  | [] => true
  | f :: rest => accepts document f && acceptsAll document rest

def acceptsAny (document : Json.Value) : List Filter → Bool
  | [] => false
  | f :: rest => accepts document f || acceptsAny document rest

end

theorem acceptsAll_eq (document : Json.Value) (filters : List Filter) :
    acceptsAll document filters = filters.all (accepts document) := by
  induction filters with
  | nil => rfl
  | cons f rest ih => simp [acceptsAll, ih]

theorem acceptsAny_eq (document : Json.Value) (filters : List Filter) :
    acceptsAny document filters = filters.any (accepts document) := by
  induction filters with
  | nil => rfl
  | cons f rest ih => simp [acceptsAny, ih]

/-- The filter that every document passes. -/
def everything : Filter := .all []

end Filter

end VersionStore
