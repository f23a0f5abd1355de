import VersionStore.Query.Form

/-! Queries in the language of search engines.

Every part of a query becomes a JSON value at a place of its own: field names are keys,
values are values, and nothing is spliced into text. -/
namespace VersionStore

namespace Filter

mutual

/-- A filter as an engine understands it. -/
def toDsl : Filter → Json.Value
  | .term field value => .object [("term", .object [(field, value)])]
  | .start field text => .object [("prefix", .object [(field, .string text)])]
  | .all [] => .object [("match_all", .object [])]
  | .all (f :: rest) => .object [("bool", .object [("filter", .array (toDsl f :: toDsls rest))])]
  | .any [] => .object [("match_none", .object [])]
  | .any (f :: rest) =>
    .object [("bool", .object
      [("minimum_should_match", .integer 1), ("should", .array (toDsl f :: toDsls rest))])]
  | .not filter => .object [("bool", .object [("must_not", .array [toDsl filter])])]

def toDsls : List Filter → List Json.Value
  | [] => []
  | f :: rest => toDsl f :: toDsls rest

end

end Filter

def SortKey.toDsl (key : SortKey) : Json.Value :=
  .object [(key.field, .object [("order", .string key.order.name)])]

def Query.toDsl (query : Query) : Json.Value :=
  .object
    [("query", query.filter.toDsl), ("size", .integer query.limit.toNat),
     ("sort", .array (query.sort.map SortKey.toDsl))]

end VersionStore
