import VersionStore.Filter
import VersionStore.Json.Decode

/-! The JSON form of filters.

A filter is an object with a single member, whose key says what kind of filter it is. A
test of a field has fields of its own, which form an object. A reader of text also takes
an array of them, in their positional order; a reader of values does not. -/
namespace VersionStore.Filter

mutual

def toValue : Filter → Json.Value
  | .term field value => .object [("term", .object [("field", .string field), ("value", value)])]
  | .start field text =>
    .object [("prefix", .object [("field", .string field), ("value", .string text)])]
  | .all filters => .object [("and", .array (toValues filters))]
  | .any filters => .object [("or", .array (toValues filters))]
  | .not filter => .object [("not", toValue filter)]

def toValues : List Filter → List Json.Value
  | [] => []
  | f :: rest => toValue f :: toValues rest

end

/-- The kinds of filters, by key. -/
def kinds : List String := ["term", "prefix", "and", "or", "not"]

/-- The fields of a term, in their positional order. -/
def termLayout : Json.Layout (String × Json.Value) where
  name := "struct variant FilterExpr::Term"
  fields := .cons ⟨"field", Json.Value.asString, none⟩ (.one ⟨"value", .ok, none⟩)

/-- The fields of a test for a beginning, in their positional order. -/
def startLayout : Json.Layout (String × String) where
  name := "struct variant FilterExpr::Prefix"
  fields :=
    .cons ⟨"field", Json.Value.asString, none⟩ (.one ⟨"value", Json.Value.asString, none⟩)

/-- Reads the fields of a test. Unless `positional`, only an object can give them. -/
def readTest {α : Type} (positional : Bool) (layout : Json.Layout α) :
    Json.Value → Json.Decoded α
  | .object members => layout.read false (.object members)
  | v => if positional then layout.read false v else .error (v.unlike "struct variant")

/-- Why the bare name of a kind is no filter. -/
def bare (kind : String) : Json.DecodeError :=
  if kind = "term" ∨ kind = "prefix" then .wrongType .bareVariant "struct variant"
  else if kind ∈ kinds then .wrongType .bareVariant "newtype variant"
  else .unknownVariant kind kinds

mutual

/-- Reads a filter; `positional` allows arrays for the fields of tests, at any depth. -/
def ofForm (positional : Bool) : Json.Value → Json.Decoded Filter
  | .object [(kind, body)] =>
    if kind = "term" then
      (readTest positional termLayout body).map fun (field, value) => .term field value
    else if kind = "prefix" then
      (readTest positional startLayout body).map fun (field, text) => .start field text
    else if kind = "and" then (ofArray positional body).map .all
    else if kind = "or" then (ofArray positional body).map .any
    else if kind = "not" then (ofForm positional body).map .not
    else .error (.unknownVariant kind kinds)
  | .object _ => .error (.wrongValue .object "map with a single key")
  | .string kind => .error (bare kind)
  | v => .error (v.unlike "string or map")

def ofArray (positional : Bool) : Json.Value → Json.Decoded (List Filter)
  | .array items => ofForms positional items
  | v => .error (v.unlike "a sequence")

/-- Reads filters one by one. -/
def ofForms (positional : Bool) : List Json.Value → Json.Decoded (List Filter)
  | [] => .ok []
  | v :: rest => do
    let filter ← ofForm positional v
    let filters ← ofForms positional rest
    return filter :: filters

end

def ofValue : Json.Value → Json.Decoded Filter := ofForm false

end VersionStore.Filter
