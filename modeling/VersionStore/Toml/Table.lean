import VersionStore.Json.Value

/-! The tables of a TOML document while it is being read.

A table comes into being under its own header, on the way to a deeper header, or by a key
with dots. Where it comes from decides what may still be added to it: a header may adopt
a table that was only passed through, and a key with dots may only go on through tables
that no header has defined. A value is never added to. -/
namespace VersionStore.Toml

/-- How a table came into being. -/
inductive Origin where
  | header
  | passage
  | dotted
  deriving DecidableEq

/-- What stands under a key: a value, a table, or an array of tables, the last one first. -/
inductive Item where
  | value (v : Json.Value)
  | table (origin : Origin) (entries : List (String × Item))
  | tables (items : List (List (String × Item)))

/-- The entries of a table. -/
abbrev Entries := Table Item

namespace Item

mutual

def toValue : Item → Json.Value
  | .value v => v
  | .table _ entries => .object (entryValues entries)
  | .tables items => .array (tableValues items).reverse

def entryValues : List (String × Item) → List (String × Json.Value)
  | [] => []
  | (key, item) :: rest => (key, item.toValue) :: entryValues rest

def tableValues : List (List (String × Item)) → List Json.Value
  | [] => []
  | entries :: rest => .object (entryValues entries) :: tableValues rest

end

end Item

/-- Changes the table at the end of a path. Tables that are missing on the way are made;
the way leads through the last table of an array, but through no value, and a key with
dots leads through no table that has a header. -/
def within (dotted : Bool) (change : Origin → Entries → Option Entries) :
    List String → Origin → Entries → Option Entries
  | [], origin, entries => change origin entries
  | key :: path, _, entries =>
    match entries.get? key with
    | none =>
      let origin := if dotted then .dotted else .passage
      (within dotted change path origin []).map fun inner => entries.put key (.table origin inner)
    | some (.table origin inner) =>
      if dotted && origin == .header then none
      else (within dotted change path origin inner).map fun inner =>
        entries.put key (.table origin inner)
    | some (.tables (last :: earlier)) =>
      (within dotted change path .header last).map fun last =>
        entries.put key (.tables (last :: earlier))
    | some (.tables []) => none
    | some (.value _) => none

/-- Adds a value under the last part of a key; the parts before it lead to the table. -/
def assign (path : List String) (key : String) (v : Json.Value) (origin : Origin)
    (entries : Entries) : Option Entries :=
  within true (fun origin entries =>
    if (origin == .dotted) == path.isEmpty || entries.has key then none
    else some (entries.put key (.value v))) path origin entries

/-- Opens the table of a header. -/
def openTable (path : List String) (key : String) (root : Entries) : Option Entries :=
  within false (fun _ entries =>
    match entries.get? key with
    | none => some (entries.put key (.table .header []))
    | some (.table .passage inner) => some (entries.put key (.table .header inner))
    | some _ => none) path .header root

/-- Adds a table to the array of a doubled header. -/
def appendTable (path : List String) (key : String) (root : Entries) : Option Entries :=
  within false (fun _ entries =>
    match entries.get? key with
    | none => some (entries.put key (.tables [[]]))
    | some (.tables items) => some (entries.put key (.tables ([] :: items)))
    | some _ => none) path .header root

end VersionStore.Toml
