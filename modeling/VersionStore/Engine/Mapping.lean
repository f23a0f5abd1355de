import VersionStore.Json.Value

/-! How an index treats the fields of records. -/
namespace VersionStore

/-- The mapping of an index of records: identifiers, kinds, paths and classifications are
matched whole, timestamps are numbers, and payloads are stored but not searched. -/
def recordMapping : Json.Value :=
  let keyword := Json.Value.object [("type", .string "keyword")]
  .object [("mappings", .object [("properties", .object
    [("doc_type", keyword), ("id", keyword), ("kind", keyword), ("path", keyword),
     ("payload", .object [("index", .boolean false), ("type", .string "text")]),
     ("timestamp", .object [("type", .string "long")])])])]

end VersionStore
