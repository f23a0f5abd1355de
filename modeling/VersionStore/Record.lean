import VersionStore.Error
import VersionStore.Identifier
import VersionStore.Json.Decode
import VersionStore.Json.Tree

/-! Records.

A record is one version of what stands at a path. It is written once and never changed:
a later write to the path makes another record with the same identifier. An engine
stores a record as a document; whoever reads a document back checks that its identifier
belongs to its path. -/
namespace VersionStore

/-- One version of the value at a path. -/
structure Record where
  identifier : Identifier
  /-- What the payload is, in the writer's terms. -/
  kind : String
  path : String
  payload : String
  /-- Sets records apart from other documents of an index. -/
  classification : String
  /-- When the record was written, in nanoseconds since the Unix epoch. -/
  timestamp : Int64
  deriving DecidableEq

namespace Record

/-- The record of a path, with the identifier of that path. -/
def make (classification path kind payload : String) (timestamp : Int64) : Record :=
  ⟨Identifier.derive path, kind, path, payload, classification, timestamp⟩

def document (r : Record) : Json.Value :=
  .object
    [("doc_type", .string r.classification), ("id", .string r.identifier.text),
     ("kind", .string r.kind), ("path", .string r.path), ("payload", .string r.payload),
     ("timestamp", .integer r.timestamp.toInt)]

/-- The fields of a stored document, in their positional order. -/
def layout : Json.Layout (String × String × String × String × String × Int64) where
  name := "struct Record"
  fields :=
    .cons ⟨"id", Json.Value.asString, none⟩ <|
    .cons ⟨"kind", Json.Value.asString, none⟩ <|
    .cons ⟨"path", Json.Value.asString, none⟩ <|
    .cons ⟨"payload", Json.Value.asString, none⟩ <|
    .cons ⟨"doc_type", Json.Value.asString, none⟩ <|
    .one ⟨"timestamp", Json.Value.asSigned, none⟩

/-- The record that a document holds, whatever its identifier. -/
def ofValue (v : Json.Value) : Json.Decoded Record :=
  (layout.read false v).map fun (id, kind, path, payload, classification, timestamp) =>
    ⟨⟨id⟩, kind, path, payload, classification, timestamp⟩

/-- How a document that is no record is named in messages. -/
def nameOf (document : Json.Value) : String :=
  ((document.member? "id").bind Json.Value.string?).getD "<unknown>"

/-- What is wrong with a document whose identifier is that of another path. -/
def mismatch (r : Record) : String :=
  "identifier does not match path " ++ Text.quoted r.path ++ " (expected " ++
    (Identifier.derive r.path).text ++ ")"

def decode (document : Json.Value) : Result Record :=
  match ofValue document with
  | .error e => .error (.storage (.corrupt (nameOf document) e.message))
  | .ok r =>
    if r.identifier = Identifier.derive r.path then .ok r
    else .error (.storage (.corrupt (nameOf document) r.mismatch))

/-- The payload as a JSON value. -/
def payloadValue (r : Record) : Result Json.Value :=
  match Json.Value.parse? r.payload with
  | some v => .ok v
  | none => .error (.storage (.corrupt r.identifier.text "payload is not valid JSON"))

end Record

end VersionStore
