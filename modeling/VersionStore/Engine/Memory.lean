import VersionStore.Engine.Request
import VersionStore.Engine.Wildcard

/-! A search engine in memory.

An index is a list of documents in the order in which they were added. A search keeps the
documents that pass the filter, sorts them so that documents the sort keys do not tell
apart stay in that order, and returns the first few. -/
namespace VersionStore

/-- Puts an item into a list that is sorted downwards, in front of all that it does not come
before. -/
def placeDown {α : Type} (compare : α → α → Ordering) (a : α) : List α → List α
  | [] => [a]
  | b :: rest => if compare a b = .lt then b :: placeDown compare a rest else a :: b :: rest

/-- Sorts a list, keeping the order of items that are not told apart. -/
def stableSort {α : Type} (compare : α → α → Ordering) (items : List α) : List α :=
  (items.foldl (fun sorted a => placeDown compare a sorted) []).reverse

/-- The documents of an index that a query asks for. -/
def Query.select (query : Query) (documents : List Json.Value) : List Json.Value :=
  (stableSort query.compare (documents.filter (Filter.accepts · query.filter))).take
    query.limit.toNat

/-- A search engine in memory. Its counts are natural numbers without a bound, not words of
64 bits. -/
structure Engine where
  indices : Table (List Json.Value) := []
  /-- Whether every request fails. -/
  unavailable : Bool := false
  /-- How many searches were served. -/
  searches : Nat := 0
  /-- How many documents were added by requests. -/
  writes : Nat := 0

namespace Engine

def documents (engine : Engine) (index : String) : List Json.Value :=
  (engine.indices.get? index).getD []

def insert (engine : Engine) (index : String) (document : Json.Value) : Engine :=
  {engine with indices := engine.indices.update index [] (· ++ [document])}

/-- Makes an empty index, unless there is one. -/
def create (engine : Engine) (index : String) : Engine :=
  {engine with indices := engine.indices.update index [] id}

def delete (engine : Engine) (pattern : String) : Engine :=
  {engine with indices := engine.indices.filter fun entry => !wildcardMatches pattern entry.1}

@[simp] theorem documents_insert (engine : Engine) (index other : String)
    (document : Json.Value) :
    (engine.insert index document).documents other =
      if other = index then engine.documents index ++ [document] else engine.documents other := by
  unfold documents insert Table.update
  rw [Table.get?_put]
  split <;> rfl

@[simp] theorem documents_create (engine : Engine) (index other : String) :
    (engine.create index).documents other = engine.documents other := by
  unfold documents create Table.update
  rw [Table.get?_put]
  split
  · next h => rw [h]; rfl
  · rfl

@[simp] theorem documents_delete (engine : Engine) (pattern index : String) :
    (engine.delete pattern).documents index =
      if wildcardMatches pattern index then [] else engine.documents index := by
  unfold documents delete
  rw [Table.get?_filter fun name => !wildcardMatches pattern name]
  cases wildcardMatches pattern index <;> rfl

/-- The error of an engine that serves nothing. -/
def outage : Error := Error.unavailable "in-memory backend marked unavailable"

def serve (engine : Engine) (request : Request) : Result request.Answer × Engine :=
  if engine.unavailable then (.error outage, engine)
  else
    match request with
    | .index index _ _ document =>
      (.ok (), {engine.insert index document with writes := engine.writes + 1})
    | .search index query =>
      (.ok (query.select (engine.documents index)), {engine with searches := engine.searches + 1})
    | .createIndex index => (.ok (), engine.create index)
    | .deleteIndices pattern => (.ok (), engine.delete pattern)
    | .listIndices => (.ok engine.indices.keys, engine)

end Engine

end VersionStore
