/-! What can go wrong, and what is said about it.

Errors are causes with their particulars; `message` is the one place for their wording.
They fall into three groups and a cancellation, and `kind` classifies them for callers
that only decide what to do next. -/
namespace VersionStore

/-- Failures of the search engine and of what it stores. -/
inductive StorageError where
  | notFound (scope key : String)
  | unavailable (reason : String)
  | corrupt (identifier reason : String)
  | index (index reason : String)
  | indexMissing (index : String)
  deriving DecidableEq

/-- Arguments that no operation accepts. -/
inductive ArgumentError where
  | missing (field : String)
  | invalid (field reason : String)
  deriving DecidableEq

/-- Settings that cannot be used. -/
inductive ConfigError where
  | missing (field : String)
  | invalid (field value reason : String)
  /-- Text that spells no settings, with what is wrong with it if that is known. -/
  | unreadable (reason : Option String)
  deriving DecidableEq

/-- Why an operation failed. -/
inductive Error where
  | storage (cause : StorageError)
  | argument (cause : ArgumentError)
  | config (cause : ConfigError)
  | cancelled (reason : String)
  deriving DecidableEq

inductive ErrorKind where
  | notFound
  | unavailable
  | corrupt
  | argument
  | cancelled
  | config
  | index
  deriving DecidableEq

def StorageError.message : StorageError → String
  | .notFound scope key => "Record not found in namespace " ++ scope ++ ": " ++ key
  | .unavailable reason => "Backend unavailable: " ++ reason
  | .corrupt identifier reason => "Corrupt record " ++ identifier ++ ": " ++ reason
  | .index name reason => "Index error on " ++ name ++ ": " ++ reason
  | .indexMissing name => "Index not found: " ++ name

def ArgumentError.message : ArgumentError → String
  | .missing field => "Required field missing: " ++ field
  | .invalid field reason => "Invalid value for " ++ field ++ ": " ++ reason

def ConfigError.message : ConfigError → String
  | .missing field => "Missing required configuration field: " ++ field
  | .invalid field value reason => "Invalid value for " ++ field ++ ": " ++ value ++ " - " ++ reason
  | .unreadable none => "Failed to parse configuration"
  | .unreadable (some reason) => "Failed to parse configuration: " ++ reason

namespace Error

/-- The message of the cause behind an error; a cancellation has none. -/
def detail? : Error → Option String
  | .storage cause => some cause.message
  | .argument cause => some cause.message
  | .config cause => some cause.message
  | .cancelled _ => none

def message : Error → String
  | .storage cause => "Storage error: " ++ cause.message
  | .argument cause => "Validation error: " ++ cause.message
  | .config cause => "Config error: " ++ cause.message
  | .cancelled reason => "Operation cancelled: " ++ reason

def kind : Error → ErrorKind
  | .storage (.notFound ..) => .notFound
  | .storage (.unavailable ..) => .unavailable
  | .storage (.corrupt ..) => .corrupt
  | .storage (.index ..) | .storage (.indexMissing ..) => .index
  | .argument _ => .argument
  | .config _ => .config
  | .cancelled _ => .cancelled

/-- A request that the engine did not serve. -/
def unavailable (reason : String) : Error := .storage (.unavailable reason)

/-- An argument that must not be left out. -/
def missing (field : String) : Error := .argument (.missing field)

/-- An argument with a value that is not allowed. -/
def invalid (field reason : String) : Error := .argument (.invalid field reason)

/-- The caller gave up. -/
def cancelledByCaller : Error := .cancelled "cancelled by caller"

/-- The caller's deadline has come. -/
def deadlineExceeded : Error := .cancelled "deadline exceeded"

end Error

abbrev Result (α : Type) := Except Error α

end VersionStore
