import Intcode.Conversion
import Intcode.Machine

/-!
# Configuration

A configuration is read from a table of loose values: a setting that the table
does not have takes its default, each setting is converted to its type, and then
the settings are checked in order. Entries that are no settings are kept.

`Config.toTable` is the table of a configuration, from which it is read again.
-/

namespace Intcode

/-- The settings of a run. -/
structure Config where
  /-- Where the program image is. -/
  programPath : String
  /-- How many instructions a machine may execute. -/
  tickLimit : Int
  /-- The phases of a chain. -/
  phases : List Int
  /-- Is the trace left out of the log? -/
  lenient : Bool
  /-- Entries that are no settings. -/
  extra : Table
  deriving Repr

/-- Why a configuration is refused. -/
inductive ConfigError where
  | badTypes (cause : ConversionError)
  | emptyPath
  | tickLimitNotPositive
  | tooFewPhases
  | phasesNotDistinct (phases : List Int)
  | fileNotFound (path : String)
  | fileUnreadable (path cause : String)
  | notMapping (path : String)
  | unsupported
  deriving DecidableEq, Repr

/-- Whole numbers between brackets. -/
def intList (xs : List Int) : String := "[" ++ ", ".intercalate (xs.map toString) ++ "]"

/-- The text of a configuration error. -/
def ConfigError.message : ConfigError → String
  | badTypes cause => "Bad types in config: " ++ cause.message
  | emptyPath => "program_path must not be empty"
  | tickLimitNotPositive => "tick_limit must be positive"
  | tooFewPhases => "phase_settings needs at least 2 values"
  | phasesNotDistinct phases => "phase_settings must be distinct: " ++ intList phases
  | fileNotFound path => "Config file not found: " ++ path
  | fileUnreadable path cause => "Failed to load config file " ++ path ++ ": " ++ cause
  | notMapping path => "Config file " ++ path ++ " does not contain a mapping"
  | unsupported => "Unsupported config input"

/-- The numbers that the text of a configuration error names. -/
def ConfigError.numbers : ConfigError → List Int
  | phasesNotDistinct phases => phases
  | _ => []

/-- How the reading of a configuration ends without one. -/
inductive ConfigFailure where
  /-- The configuration is refused. -/
  | refused (error : ConfigError)
  /-- A number of the configuration has no meaning, and this is not reported as a refusal. -/
  | conversion (cause : ConversionError)
  /-- Something in the file cannot be read, and this is not reported as a refusal. -/
  | unreadable (kind : ConversionKind) (message : String)
  /-- The file is no text. -/
  | notUtf8
  deriving DecidableEq, Repr

namespace Config

/-- The phases where none are given. -/
def defaultPhases : List Int := [0, 1, 2, 3, 4]

/-- The names of the settings. -/
def settingNames : List String := ["program_path", "tick_limit", "phase_settings", "lenient_log"]

/-- A conversion that fails refuses the configuration. Only that of an infinity does not: its failure
is passed on as it is. -/
def convert {α : Type} : Except ConversionError α → Except ConfigFailure α
  | .ok a => .ok a
  | .error cause =>
    .error (if cause.kind = .overflow then .conversion cause else .refused (.badTypes cause))

/-- An error as a refusal, unless its text cannot be written. -/
def refusal (e : ConfigError) : ConfigFailure :=
  if Numeral.allWritable e.numbers then .refused e else .conversion .notWritable

/-- The path that a setting stands for. -/
def toPath : Option Value → Except ConversionError String
  | some v => v.toText
  | none => .ok "input.txt"

/-- The limit that a setting stands for. -/
def toLimit : Option Value → Except ConversionError Int
  | some v => v.toInt
  | none => .ok Machine.defaultTickLimit

/-- The phases that a setting stands for; null stands for the default. -/
def toPhases : Option Value → Except ConversionError (List Int)
  | none | some (.scalar .null) => .ok defaultPhases
  | some v => v.toInts

/-- The leniency that a setting stands for. -/
def toLenient (setting : Option Value) : Bool := (setting.map Value.truthy).getD false

/-- Converts the entries of a table to their types. -/
def ofEntries (t : Table) : Except ConfigFailure Config := do
  let programPath ← convert (toPath (t.get? (.text "program_path")))
  let tickLimit ← convert (toLimit (t.get? (.text "tick_limit")))
  let phases ← convert (toPhases (t.get? (.text "phase_settings")))
  let lenient := toLenient (t.get? (.text "lenient_log"))
  return { programPath, tickLimit, phases, lenient, extra := t.without settingNames }

/-- Checks the settings in order. -/
def check (c : Config) : Except ConfigError Config :=
  if c.programPath = "" then .error .emptyPath
  else if c.tickLimit ≤ 0 then .error .tickLimitNotPositive
  else if c.phases.length < 2 then .error .tooFewPhases
  else if ¬ c.phases.Nodup then .error (.phasesNotDistinct c.phases)
  else .ok c

/-- Reads a configuration from a table. -/
def ofTable (t : Table) : Except ConfigFailure Config := do
  let c ← ofEntries t
  c.check.mapError refusal

/-- The table of a configuration. -/
def toTable (c : Config) : Table :=
  [(.text "program_path", .text c.programPath), (.text "tick_limit", .int c.tickLimit),
    (.text "phase_settings", .list (c.phases.map .int)), (.text "lenient_log", .bool c.lenient)] ++
    c.extra

/-- The configuration where nothing is given. -/
def default : Config where
  programPath := "input.txt"
  tickLimit := Machine.defaultTickLimit
  phases := defaultPhases
  lenient := false
  extra := []

end Config

end Intcode
