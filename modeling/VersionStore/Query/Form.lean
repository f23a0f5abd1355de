import VersionStore.Filter.Form
import VersionStore.Query

/-! The JSON form of queries.

Queries and sort keys are structures, so an array of their fields is read as well. -/
namespace VersionStore

namespace SortOrder

def name : SortOrder → String
  | .ascending => "asc"
  | .descending => "desc"

def ofName (name : String) : Json.Decoded SortOrder :=
  if name = "asc" then .ok .ascending
  else if name = "desc" then .ok .descending
  else .error (.unknownVariant name ["asc", "desc"])

/-- Reads a direction: its name, alone or as the key of a null. -/
def ofValue : Json.Value → Json.Decoded SortOrder
  | .string name => ofName name
  | .object [(name, body)] => do
    let order ← ofName name
    match body with
    | .null => return order
    | v => .error (v.unlike "unit")
  | .object _ => .error (.wrongValue .object "map with a single key")
  | v => .error (v.unlike "string or map")

end SortOrder

namespace SortKey

def toValue (key : SortKey) : Json.Value :=
  .object [("field", .string key.field), ("order", .string key.order.name)]

/-- The fields of a sort key, in their positional order. -/
def layout : Json.Layout (String × SortOrder) where
  name := "struct SortField"
  fields := .cons ⟨"field", Json.Value.asString, none⟩ (.one ⟨"order", SortOrder.ofValue, none⟩)

def ofValue (v : Json.Value) : Json.Decoded SortKey :=
  (layout.read false v).map fun (field, order) => ⟨field, order⟩

end SortKey

namespace Query

def toValue (query : Query) : Json.Value :=
  .object
    [("filter", query.filter.toValue), ("limit", .integer query.limit.toNat),
     ("sort", .array (query.sort.map SortKey.toValue))]

/-- The fields of a query, in their positional order; `positional` is for its filter. -/
def layout (positional : Bool) : Json.Layout (Filter × List SortKey × UInt64) where
  name := "struct SearchQuery"
  fields :=
    .cons ⟨"filter", Filter.ofForm positional, none⟩ <|
    .cons ⟨"sort", Json.Value.asList SortKey.ofValue, none⟩ <|
    .one ⟨"limit", Json.Value.asUnsigned "usize", none⟩

def ofForm (positional : Bool) (v : Json.Value) : Json.Decoded Query :=
  ((layout positional).read false v).map fun (filter, sort, limit) => ⟨filter, sort, limit⟩

def ofValue : Json.Value → Json.Decoded Query := ofForm false

end Query

end VersionStore
