import VersionStore.Filter
import VersionStore.Identifier

/-! Search requests.

A query filters the documents of an index, sorts them by a list of keys and keeps the
first few. The queries of the store all ask for records of one classification. -/
namespace VersionStore

inductive SortOrder where
  | ascending
  | descending
  deriving DecidableEq

structure SortKey where
  field : String
  order : SortOrder
  deriving DecidableEq

/-- The order of two field values: numbers by value, strings by their characters; values of
different kinds are not told apart. -/
def Json.Value.compare : Json.Value → Json.Value → Ordering
  | .number m, .number n => m.compare n
  | .string s, .string t => Ord.compare s t
  | _, _ => .eq

/-- The order of two documents by one key. One without the field comes last, whatever the
direction. -/
def SortKey.compare (key : SortKey) (a b : Json.Value) : Ordering :=
  match a.member? key.field, b.member? key.field with
  | none, none => .eq
  | none, some _ => .gt
  | some _, none => .lt
  | some x, some y =>
    match key.order with
    | .ascending => x.compare y
    | .descending => (x.compare y).swap

structure Query where
  filter : Filter
  sort : List SortKey
  /-- The most documents to return. -/
  limit : UInt64

namespace Query

/-- The order of two documents: that of the first key that tells them apart. -/
def compareBy : List SortKey → Json.Value → Json.Value → Ordering
  | [], _, _ => .eq
  | key :: rest, a, b => (key.compare a b).then (compareBy rest a b)

def compare (query : Query) (a b : Json.Value) : Ordering := compareBy query.sort a b

/-- The first ten documents, in the order of the index. -/
def firstTen : Query := ⟨.everything, [], 10⟩

/-- Records of a classification that pass a test, the newest first. -/
def newest (test : Filter) (classification : String) (limit : UInt64) : Query where
  filter := .all [test, .term "doc_type" (.string classification)]
  sort := [⟨"timestamp", .descending⟩]
  limit := limit

def latest (identifier : Identifier) (classification : String) : Query :=
  newest (.term "id" (.string identifier.text)) classification 1

/-- The newest version among the identifiers that start with a text. -/
def latestStarting (start classification : String) : Query :=
  newest (.start "id" start) classification 1

/-- The versions with an identifier, the newest first. -/
def versions (identifier : Identifier) (classification : String) (limit : UInt64) : Query :=
  newest (.term "id" (.string identifier.text)) classification limit

/-- The version with an identifier that was written at a given time. -/
def version (identifier : Identifier) (classification : String) (timestamp : Int64) : Query where
  filter := .all
    [.term "id" (.string identifier.text), .term "doc_type" (.string classification),
     .term "timestamp" (.integer timestamp.toInt)]
  sort := []
  limit := 1

end Query

end VersionStore
