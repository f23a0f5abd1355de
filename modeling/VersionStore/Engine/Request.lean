import VersionStore.Error
import VersionStore.Query

/-! What a store asks of a search engine.

The engine adds documents to indices and searches them, but finds nothing by key. Each
request has a type of answers of its own. -/
namespace VersionStore

/-- A request to a search engine. -/
inductive Request where
  /-- Adds a document to an index, and makes the index if it is missing. -/
  | index (index classification identifier : String) (document : Json.Value)
  /-- Searches an index; one that is missing holds nothing. -/
  | search (index : String) (query : Query)
  /-- Makes an empty index, unless there is one. -/
  | createIndex (index : String)
  /-- Removes the indices whose names match a pattern. -/
  | deleteIndices (pattern : String)
  /-- Asks for the names of all indices. -/
  | listIndices

inductive RequestKind where
  | index
  | search
  | createIndex
  | deleteIndices
  | listIndices
  deriving DecidableEq

namespace Request

/-- What an engine answers to a request. -/
def Answer : Request → Type
  | .index .. => Unit
  | .search .. => List Json.Value
  | .createIndex _ => Unit
  | .deleteIndices _ => Unit
  | .listIndices => List String

def kind : Request → RequestKind
  | .index .. => .index
  | .search .. => .search
  | .createIndex _ => .createIndex
  | .deleteIndices _ => .deleteIndices
  | .listIndices => .listIndices

end Request

end VersionStore
