import VersionStore.Query.Dsl

/-! What a search engine reads in a query.

An engine is given a query as a JSON value and knows nothing of filters. `Dsl.holds?` is
what it makes of a condition: a tree of `bool` objects over tests of single fields, where
each clause of a `bool` object has conditions of its own. `Query.ofDsl?` goes back from a
body to the query that it was made from. Values that are not of the language have no
reading. -/
namespace VersionStore

open Json (Value)

namespace Dsl

/-- Whether a document has a value in a field. -/
def term? (document : Value) : Value → Option Bool
  | .object [(field, value)] => some ((document.member? field).any (·.agrees value))
  | _ => none

/-- Whether a document has a string in a field that starts with a text. -/
def prefixed? (document : Value) : Value → Option Bool
  | .object [(field, .string text)] =>
    some (((document.member? field).bind Value.string?).any (Text.startsWith · text))
  | _ => none

/-- How many of the conditions under `should` have to hold. -/
def least? (clauses : List (String × Value)) : Option Nat :=
  match Table.get? "minimum_should_match" clauses with
  | some (.number (.integer n)) => some n.toNat
  | _ => none

/-- Whether a clause holds, given for each of its conditions whether that holds. -/
def clause? (least : Option Nat) (kind : String) (answers : List Bool) : Option Bool :=
  if kind = "filter" then some (answers.all id)
  else if kind = "must_not" then some (!answers.any id)
  else if kind = "should" then least.map fun n => decide (n ≤ answers.countP id)
  else none

mutual

/-- Whether a condition holds of a document. -/
def holds? (document : Value) : Value → Option Bool
  | .object [(kind, body)] =>
    if kind = "term" then term? document body
    else if kind = "prefix" then prefixed? document body
    else if kind = "match_all" then some true
    else if kind = "match_none" then some false
    else if kind = "bool" then allClauses? document body
    else none
  | _ => none

/-- Whether all clauses of the body of a `bool` object hold. -/
def allClauses? (document : Value) : Value → Option Bool
  | .object clauses => clausesFrom? document (least? clauses) clauses
  | _ => none

/-- Whether all clauses of a list hold; how many conditions have to is no clause. -/
def clausesFrom? (document : Value) (least : Option Nat) : List (String × Value) → Option Bool
  | [] => some true
  | (kind, body) :: rest =>
    if kind = "minimum_should_match" then clausesFrom? document least rest
    else
      (answers? document body).bind fun answers =>
        (clause? least kind answers).bind fun holds =>
          (clausesFrom? document least rest).map (holds && ·)

/-- For each condition of a clause, whether it holds. -/
def answers? (document : Value) : Value → Option (List Bool)
  | .array conditions => answersFrom? document conditions
  | _ => none

/-- For each condition of a list, whether it holds. -/
def answersFrom? (document : Value) : List Value → Option (List Bool)
  | [] => some []
  | condition :: rest =>
    (holds? document condition).bind fun answer =>
      (answersFrom? document rest).map (answer :: ·)

end

end Dsl

namespace Filter

/-- The test of a field that the body of a term states. -/
def ofTerm? : Value → Option Filter
  | .object [(field, value)] => some (.term field value)
  | _ => none

/-- The test for a beginning that the body of a prefix states. -/
def ofPrefix? : Value → Option Filter
  | .object [(field, .string text)] => some (.start field text)
  | _ => none

mutual

/-- The filter that a condition was made from. -/
def ofDsl? : Value → Option Filter
  | .object [(kind, body)] =>
    if kind = "term" then ofTerm? body
    else if kind = "prefix" then ofPrefix? body
    else if kind = "match_all" then some (.all [])
    else if kind = "match_none" then some (.any [])
    else if kind = "bool" then ofClauses? body
    else none
  | _ => none

/-- The filter that the body of a `bool` object was made from. -/
def ofClauses? : Value → Option Filter
  | .object [(kind, body)] =>
    if kind = "filter" then (ofConditions? body).map .all
    else if kind = "must_not" then
      match ofConditions? body with
      | some [filter] => some (.not filter)
      | _ => none
    else none
  | .object [(count, _), (kind, body)] =>
    if count = "minimum_should_match" ∧ kind = "should" then (ofConditions? body).map .any
    else none
  | _ => none

def ofConditions? : Value → Option (List Filter)
  | .array conditions => ofDsls? conditions
  | _ => none

def ofDsls? : List Value → Option (List Filter)
  | [] => some []
  | condition :: rest =>
    (ofDsl? condition).bind fun filter => (ofDsls? rest).map (filter :: ·)

end

end Filter

def SortOrder.ofDsl? : Value → Option SortOrder
  | .string name => (ofName name).toOption
  | _ => none

def SortKey.ofDsl? : Value → Option SortKey
  | .object [(field, order)] => ((order.member? "order").bind SortOrder.ofDsl?).map (⟨field, ·⟩)
  | _ => none

def SortKey.ofDsls? : Value → Option (List SortKey)
  | .array keys => keys.mapM ofDsl?
  | _ => none

/-- The number of documents that a part of a body asks for. -/
def Dsl.size? : Value → Option Nat
  | .number (.integer n) => some n.toNat
  | _ => none

/-- The query that a body was made from. -/
def Query.ofDsl? (body : Value) : Option Query := do
  let filter ← (body.member? "query").bind Filter.ofDsl?
  let sort ← (body.member? "sort").bind SortKey.ofDsls?
  let limit ← (body.member? "size").bind Dsl.size?
  return ⟨filter, sort, UInt64.ofNat limit⟩

end VersionStore
