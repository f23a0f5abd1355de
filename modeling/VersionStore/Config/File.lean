import VersionStore.Config.Form
import VersionStore.Toml.Document

/-! Settings from a file.

A file is TOML text that gives every setting; what it gives must be usable. -/
namespace VersionStore.Config

/-- The error of text that does not spell settings. -/
def unreadable : ConfigError := .unreadable none

/-- Reads settings from TOML text and checks them. -/
def parse (text : String) : Except ConfigError Config :=
  match Toml.parse? text with
  | none => .error unreadable
  | some v =>
    match ofValue true v with
    | .error _ => .error unreadable
    | .ok config => config.validate.map fun _ => config

/-- Reads settings from the contents of a file; a missing file, and one that is not text,
has no text. -/
def parseFile : Option String → Except ConfigError Config
  | none => .error unreadable
  | some text => parse text

end VersionStore.Config
