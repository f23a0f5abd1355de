import VersionStore.Json.Token
import VersionStore.Json.Numeral

/-! JSON text as a tree, and the value of a tree.

A tree is what the grammar of JSON finds in a text: members stand in the order of the
text, keys may occur twice, numerals and strings are kept as they are written. Only a
part whose value is wanted has to have one: `value?` asks for finite numbers, whole
surrogate pairs and a bounded depth, and of two members with one key keeps the later.

Tokens are read one at a time by a machine with a stack, whose states say what may come
next. -/
namespace VersionStore.Json

inductive Tree where
  | null
  | boolean (b : Bool)
  | numeral (n : Numeral)
  | string (pieces : List Piece)
  | array (items : List Tree)
  | object (members : List (List Piece × Tree))

namespace Tree

/-- An array or object around the value being read; what it holds so far is in reverse. -/
inductive Frame where
  | array (items : List Tree)
  | member (members : List (List Piece × Tree)) (key : List Piece)

/-- What may come next: a value, the first item of an array or its end, a key (or, in an
object without members, its end), a colon, and after an item or a member a comma or the
end. `finished` holds a complete tree. -/
inductive State where
  | value (stack : List Frame)
  | firstItem (stack : List Frame)
  | key (members : List (List Piece × Tree)) (stack : List Frame)
  | colon (members : List (List Piece × Tree)) (key : List Piece) (stack : List Frame)
  | afterItem (items : List Tree) (stack : List Frame)
  | afterMember (members : List (List Piece × Tree)) (stack : List Frame)
  | finished (tree : Tree)

/-- Puts a complete tree into the innermost frame. -/
def deliver (tree : Tree) : List Frame → State
  | [] => .finished tree
  | .array items :: stack => .afterItem (tree :: items) stack
  | .member members key :: stack => .afterMember ((key, tree) :: members) stack

/-- The value that a word stands for. -/
def ofWord? (chars : List Char) : Option Tree :=
  if chars = ['n', 'u', 'l', 'l'] then some .null
  else if chars = ['t', 'r', 'u', 'e'] then some (.boolean true)
  else if chars = ['f', 'a', 'l', 's', 'e'] then some (.boolean false)
  else (Numeral.parse? chars).map .numeral

/-- Reads the first token of a value. -/
def start? (stack : List Frame) : Token → Option State
  | .openArray => some (.firstItem stack)
  | .openObject => some (.key [] stack)
  | .string pieces => some (deliver (.string pieces) stack)
  | .word chars => (ofWord? chars).map (deliver · stack)
  | _ => none

def step? : State → Token → Option State
  | .value stack, token => start? stack token
  | .firstItem stack, token =>
    if token = .closeArray then some (deliver (.array []) stack)
    else start? (.array [] :: stack) token
  | .key members stack, token =>
    match token with
    | .string pieces => some (.colon members pieces stack)
    | .closeObject => if members.isEmpty then some (deliver (.object []) stack) else none
    | _ => none
  | .colon members key stack, token =>
    if token = .colon then some (.value (.member members key :: stack)) else none
  | .afterItem items stack, token =>
    match token with
    | .comma => some (.value (.array items :: stack))
    | .closeArray => some (deliver (.array items.reverse) stack)
    | _ => none
  | .afterMember members stack, token =>
    match token with
    | .comma => some (.key members stack)
    | .closeObject => some (deliver (.object members.reverse) stack)
    | _ => none
  | .finished _, _ => none

/-- Reads the remaining tokens. -/
def readFrom? (state : State) : List Token → Option Tree
  | [] => match state with
    | .finished tree => some tree
    | _ => none
  | token :: rest => (step? state token).bind (readFrom? · rest)

def parse? (text : List Char) : Option Tree :=
  (Token.scan? text).bind (readFrom? (.value []))

/-- The text that the pieces of a string spell. -/
def text? (pieces : List Piece) : Option String := (Piece.text? pieces).map String.ofList

mutual

/-- The value of a tree that may nest arrays and objects `room` deep. -/
def value? (room : Nat) : Tree → Option Value
  | .null => some .null
  | .boolean b => some (.boolean b)
  | .numeral n => n.number?.map .number
  | .string pieces => (text? pieces).map .string
  | .array items =>
    match room with
    | 0 => none
    | room + 1 => (values? room items).map .array
  | .object members =>
    match room with
    | 0 => none
    | room + 1 => (members? room members).map .ofMembers

def values? (room : Nat) : List Tree → Option (List Value)
  | [] => some []
  | tree :: rest => (value? room tree).bind fun v => (values? room rest).map (v :: ·)

/-- The values of members, in the order of the text. -/
def members? (room : Nat) : List (List Piece × Tree) → Option (List (String × Value))
  | [] => some []
  | (key, tree) :: rest =>
    (text? key).bind fun k => (value? room tree).bind fun v =>
      (members? room rest).map ((k, v) :: ·)

end

end Tree

/-- How deep arrays and objects may nest in a text whose value is read. -/
def depthLimit : Nat := 127

def Value.parse? (text : String) : Option Value :=
  (Tree.parse? text.toList).bind (Tree.value? depthLimit)

end VersionStore.Json
