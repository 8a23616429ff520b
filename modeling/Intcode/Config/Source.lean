import Intcode.Config
import Intcode.Files

/-!
# Where a configuration comes from

A configuration is given as a table, or as the path of a file that holds one, or
not at all. What the octets of a file stand for is left to a reader, whatever format
it reads. A file whose document is empty or stands for nothing counts as an empty
table.
-/

namespace Intcode.Config

/-- What is given as a configuration. -/
inductive Source where
  | absent
  | table (entries : Table)
  | file (path : String)
  /-- Something that is no configuration. -/
  | other
  deriving Repr

/-- A loose value as a source: null is none, and a text is a path. -/
def Source.ofValue : Value → Source
  | .scalar .null => .absent
  | .table entries => .table entries
  | .scalar (.text path) => .file path
  | _ => .other

/-- Why the octets of a file stand for no value. -/
inductive DocumentError where
  /-- The text breaks the rules of its format. -/
  | malformed (message : String)
  /-- A part of the text has no value, and this is not reported as a breach of the rules. -/
  | meaningless (kind : ConversionKind) (message : String)
  /-- The octets are no text. -/
  | notUtf8
  deriving DecidableEq, Repr

/-- What reads the value that the octets of a file stand for. -/
abbrev Reader := List UInt8 → Except DocumentError Value

/-- A refusal. -/
def refuse {α : Type} (e : ConfigError) : Except ConfigFailure α := .error (.refused e)

/-- How the reading of a file ends if it stands for no value. Only a breach of the rules of its format
is a refusal. -/
def DocumentError.failure (path : String) : DocumentError → ConfigFailure
  | malformed message => .refused (.fileUnreadable path message)
  | meaningless kind message => .unreadable kind message
  | notUtf8 => .notUtf8

/-- The table in the octets of a file. -/
def tableOfOctets (reader : Reader) (path : String) (octets : List UInt8) :
    Except ConfigFailure Table :=
  match reader octets with
  | .ok (.table entries) => .ok entries
  | .ok v => if v.truthy then refuse (.notMapping path) else .ok []
  | .error cause => .error (cause.failure path)

/-- The table in a file. -/
def tableOfFile (reader : Reader) (fs : Files) (path : String) : Except ConfigFailure Table :=
  match fs.find? path with
  | none => refuse (.fileNotFound path)
  | some .directory =>
    refuse (.fileUnreadable path (FileError.isADirectory (Path.parse path).text).message)
  | some (.file octets) => tableOfOctets reader path octets

/-- Reads a configuration from a source. -/
def load (reader : Reader) (fs : Files) : Source → Except ConfigFailure Config
  | .absent => ofTable []
  | .table entries => ofTable entries
  | .file path => do
    let entries ← tableOfFile reader fs path
    ofTable entries
  | .other => refuse .unsupported

end Intcode.Config
