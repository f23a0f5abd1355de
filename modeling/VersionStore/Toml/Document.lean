import VersionStore.Toml.Scalar
import VersionStore.Toml.Table

/-! TOML documents.

A document is read line by line: headers say which table the assignments after them
belong to. Its value is an object; arrays and inline tables nest to a bounded depth. -/
namespace VersionStore.Toml

open VersionStore.Text (Scan)

/-- A line of a document. -/
inductive Line where
  | header (path : List String)
  | arrayHeader (path : List String)
  | assignment (path : List String) (value : Json.Value)

/-- Splits a key into the parts that lead to a table and the last one. -/
def splitLast (key : List String) : Option (List String × String) :=
  key.getLast?.map fun last => (key.dropLast, last)

/-- The rest of an array, with at most `count` items. -/
def arrayRest (item : Scan Json.Value) : Nat → Scan (List Json.Value)
  | 0 => Scan.fail
  | count + 1 => do
    skipLines
    if ← Scan.accept [']'] then return []
    else
      let v ← item
      skipLines
      if ← Scan.accept [','] then return v :: (← arrayRest item count)
      else
        Scan.expect [']']
        return [v]

/-- An assignment without the end of its line. -/
def assignmentOf (value : Scan Json.Value) : Scan (List String × Json.Value) := do
  let path ← key
  Scan.expect ['=']
  skipSpaces
  let v ← value
  return (path, v)

/-- The assignments of an inline table, at most `count`, and its end. -/
def inlineRest (value : Scan Json.Value) : Nat → Scan (List (List String × Json.Value))
  | 0 => Scan.fail
  | count + 1 => do
    let pair ← assignmentOf value
    skipSpaces
    if ← Scan.accept [','] then
      skipSpaces
      return pair :: (← inlineRest value count)
    else
      Scan.expect ['\x7d']
      return [pair]

/-- Carries out assignments in a table. -/
def assignAll (origin : Origin) (entries : Entries) :
    List (List String × Json.Value) → Option Entries
  | [] => some entries
  | (path, v) :: rest => do
    let (way, last) ← splitLast path
    let entries ← assign way last v origin entries
    assignAll origin entries rest

/-- A value whose arrays and inline tables nest less than `levels` deep. -/
def value : Nat → Scan Json.Value
  | 0 => Scan.fail
  | levels + 1 => do
    let bound := (← get).length + 1
    match ← Scan.peek with
    | some '"' | some '\'' => return .string (String.ofList (← string))
    | some '[' =>
      if levels = 0 then Scan.fail
      else
        Scan.expect ['[']
        return .array (← arrayRest (value levels) bound)
    | some '\x7b' =>
      if levels = 0 then Scan.fail
      else
        Scan.expect ['\x7b']
        skipSpaces
        let pairs ← if ← Scan.accept ['\x7d'] then pure [] else inlineRest (value levels) bound
        match assignAll .header [] pairs with
        | some entries => return .object (Item.entryValues entries)
        | none => Scan.fail
    | _ => scalar

/-- A key between brackets. -/
def bracketed (opening closing : List Char) : Scan (List String) := do
  Scan.expect opening
  skipSpaces
  let path ← key
  Scan.expect closing
  endLine
  return path

/-- The lines of a document, at most `count`. -/
def lines : Nat → Scan (List Line)
  | 0 => Scan.fail
  | count + 1 => do
    skipSpaces
    match ← Scan.peek with
    | none => return []
    | some '#' | some '\n' | some '\r' =>
      endLine
      lines count
    | some '[' =>
      let line ←
        if ['[', '['].isPrefixOf (← get) then pure .arrayHeader <*> bracketed ['[', '['] [']', ']']
        else pure .header <*> bracketed ['['] [']']
      return line :: (← lines count)
    | some _ =>
      let (path, v) ← assignmentOf (value levelLimit)
      endLine
      return .assignment path v :: (← lines count)

/-- Carries out the lines of a document; `header` is the path of the table at hand. -/
def build (header : List String) (root : Entries) : List Line → Option Entries
  | [] => some root
  | .header path :: rest => do
    let (way, last) ← splitLast path
    build path (← openTable way last root) rest
  | .arrayHeader path :: rest => do
    let (way, last) ← splitLast path
    build path (← appendTable way last root) rest
  | .assignment path v :: rest => do
    let (way, last) ← splitLast path
    build header (← within false (assign way last v) header .header root) rest

/-- The value of a document, which may start with a byte order mark. -/
def parse? (text : String) : Option Json.Value := do
  let chars := match text.toList with
    | '\ufeff' :: rest => rest
    | chars => chars
  let found ← (lines (chars.length + 1)).all? chars
  let root ← build [] [] found
  return .object (Item.entryValues root)

end VersionStore.Toml
