import VersionStore.Json.Value
import VersionStore.Number.Shortest
import VersionStore.Text.Quoted

/-! Typed reading of JSON values.

A value is read as a scalar, a list, or a structure with named fields. A structure is an
object, or an array that lists its fields in the order of their declaration. The members
of an object are read in key order and the first bad one is reported; a missing field is
reported only after all members are good. -/
namespace VersionStore.Json

/-- What was found where something else was wanted. -/
inductive Found where
  | null
  | boolean (b : Bool)
  | integer (n : Int)
  | double (d : Double)
  | string (s : String)
  | array
  | object
  | bareVariant
  deriving DecidableEq

/-- Why a value could not be read. -/
inductive DecodeError where
  | wrongType (found : Found) (expected : String)
  | wrongValue (found : Found) (expected : String)
  | wrongLength (length : Nat) (expected : String)
  | unknownVariant (name : String) (known : List String)
  | unknownField (name : String) (known : List String)
  | missingField (name : String)
  | rejected (reason : String)
  deriving DecidableEq

def Found.text : Found → String
  | .null => "null"
  | .boolean b => if b then "boolean `true`" else "boolean `false`"
  | .integer n => "integer `" ++ toString n ++ "`"
  | .double d => "floating point `" ++ d.text ++ "`"
  | .string s => "string " ++ Text.quoted s
  | .array => "sequence"
  | .object => "map"
  | .bareVariant => "unit variant"

/-- A name between accents. -/
def accented (name : String) : String := "`" ++ name ++ "`"

/-- A list of at least two names to choose from. -/
def choices : List String → String
  | [a, b] => accented a ++ " or " ++ accented b
  | names => "one of " ++ ", ".intercalate (names.map accented)

def DecodeError.message : DecodeError → String
  | .wrongType found expected => "invalid type: " ++ found.text ++ ", expected " ++ expected
  | .wrongValue found expected => "invalid value: " ++ found.text ++ ", expected " ++ expected
  | .wrongLength length expected =>
    "invalid length " ++ toString length ++ ", expected " ++ expected
  | .unknownVariant name known =>
    "unknown variant " ++ accented name ++ ", expected " ++ choices known
  | .unknownField name known => "unknown field " ++ accented name ++ ", expected " ++ choices known
  | .missingField name => "missing field " ++ accented name
  | .rejected reason => reason

/-- Readings that may fail. -/
abbrev Decoded (α : Type) := Except DecodeError α

namespace Value

/-- What a value is, for a message. -/
def found : Value → Found
  | .null => .null
  | .boolean b => .boolean b
  | .number (.integer n) => .integer n
  | .number (.double d) => .double d
  | .string s => .string s
  | .array _ => .array
  | .object _ => .object

/-- The complaint about a value of the wrong type. -/
def unlike (v : Value) (expected : String) : DecodeError := .wrongType v.found expected

def asString : Value → Decoded String
  | .string s => .ok s
  | v => .error (v.unlike "a string")

def asBoolean : Value → Decoded Bool
  | .boolean b => .ok b
  | v => .error (v.unlike "a boolean")

def asSigned : Value → Decoded Int64
  | .number (.integer n) =>
    if Word.isSigned n then .ok (Int64.ofInt n) else .error (.wrongValue (.integer n) "i64")
  | v => .error (v.unlike "i64")

/-- Reads an unsigned integer of sixty-four bits, described by `expected` in messages. -/
def asUnsigned (expected : String) : Value → Decoded UInt64
  | .number (.integer n) =>
    if Word.isUnsigned n then .ok (UInt64.ofNat n.toNat)
    else .error (.wrongValue (.integer n) expected)
  | v => .error (v.unlike expected)

def asOptionalString : Value → Decoded (Option String)
  | .null => .ok none
  | v => v.asString.map some

def asList (read : Value → Decoded α) : Value → Decoded (List α)
  | .array items => items.mapM read
  | v => .error (v.unlike "a sequence")

end Value

/-- A field of a structure: its name, how its value is read, and what it is when missing. -/
structure Field (α : Type) where
  name : String
  read : Value → Decoded α
  absent : Option α := none

/-- The fields of a structure, in the order of their declaration. -/
inductive Fields : Type → Type 1 where
  | one {α : Type} (field : Field α) : Fields α
  | cons {α β : Type} (field : Field α) (rest : Fields β) : Fields (α × β)

namespace Fields

def names {α : Type} : Fields α → List String
  | one field => [field.name]
  | cons field rest => field.name :: rest.names

/-- Reads a member on its own; one that is no field passes unless the structure is strict. -/
def check {α : Type} (known : List String) (strict : Bool) (key : String) (value : Value) :
    Fields α → Decoded Unit
  | one field =>
    if field.name = key then (field.read value).map fun _ => ()
    else if strict then .error (.unknownField key known) else .ok ()
  | cons field rest =>
    if field.name = key then (field.read value).map fun _ => ()
    else rest.check known strict key value

/-- The value of one field among the members of an object. -/
def pick {α : Type} (field : Field α) (members : Table Value) : Decoded α :=
  match members.get? field.name, field.absent with
  | some value, _ => field.read value
  | none, some absent => .ok absent
  | none, none => .error (.missingField field.name)

/-- The values of all fields among the members of an object. -/
def collect {α : Type} (members : Table Value) : Fields α → Decoded α
  | one field => pick field members
  | cons field rest => do
    let a ← pick field members
    let b ← rest.collect members
    return (a, b)

/-- Reads an object as a structure. -/
def ofMembers {α : Type} (fields : Fields α) (strict : Bool) (members : Table Value) :
    Decoded α := do
  members.forM fun (key, value) => fields.check fields.names strict key value
  fields.collect members

/-- Reads fields from the items of an array, `index` of which are read already. Without the
item of a field the array is too short. -/
def ofItems {α : Type} (shape : String) (index : Nat) : Fields α → List Value →
    Decoded (α × List Value)
  | _, [] => .error (.wrongLength index shape)
  | one field, item :: items => (field.read item).map (·, items)
  | cons field rest, item :: items => do
    let a ← field.read item
    let (b, left) ← rest.ofItems shape (index + 1) items
    return ((a, b), left)

end Fields

/-- A structure: its name in messages, its fields, and whether other members are errors. -/
structure Layout (α : Type) where
  name : String
  fields : Fields α
  strict : Bool := false

namespace Layout

/-- How a message describes the array form of a structure. -/
def shape {α : Type} (layout : Layout α) : String :=
  layout.name ++ " with " ++ toString layout.fields.names.length ++ " elements"

/-- Reads a structure. With `surplus`, items of an array beyond the last field are ignored. -/
def read {α : Type} (layout : Layout α) (surplus : Bool) : Value → Decoded α
  | .object members => layout.fields.ofMembers layout.strict members
  | .array items => do
    let (result, left) ← layout.fields.ofItems layout.shape 0 items
    if left.isEmpty || surplus then return result
    else .error (.wrongLength items.length "fewer elements in array")
  | v => .error (v.unlike layout.name)

end Layout

end VersionStore.Json
