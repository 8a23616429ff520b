import Intcode.Chain.Search
import Intcode.Config

/-!
# Runs under unchecked settings

Machines and chains can also be started with settings that no configuration has
checked: a limit that is any loose value. The limit is converted when a machine
is loaded, so a chain that has too few stages to load one fails for that reason.
-/

namespace Intcode

/-- How a run under unchecked settings fails. -/
inductive RunFailure where
  | fault (cause : Fault)
  | conversion (cause : ConversionError)
  deriving DecidableEq, Repr

/-- The limit where none is given. -/
def defaultLimit : Value := .int Machine.defaultTickLimit

namespace Machine

/-- A machine whose limit and leniency are loose values. -/
def bootLoose (image : List Int) (channel : Channel) (tickLimit lenient : Value) :
    Except ConversionError Machine :=
  tickLimit.toInt.map fun limit => .boot image channel limit lenient.truthy

/-- A machine whose limit and leniency are entries of a table. -/
def bootUnder (image : List Int) (channel : Channel) (settings : Table) :
    Except ConversionError Machine :=
  bootLoose image channel ((settings.get? (.text "tick_limit")).getD defaultLimit)
    ((settings.get? (.text "lenient_log")).getD (.bool false))

end Machine

namespace Chain

/-- A chain whose limit is a loose value, once a machine of it is to be loaded. -/
def loose (program : List Int) (limit : Value) : Except RunFailure Chain :=
  (limit.toInt.map fun tickLimit => ⟨program, tickLimit⟩).mapError .conversion

/-- Runs a stage under a loose limit. -/
def runStageLoose (program : List Int) (limit : Value) (stage phase signal : Int) :
    Except RunFailure Int := do
  let c ← loose program limit
  (c.runStage stage phase signal).mapError .fault

/-- A stage under a limit that is a number is a stage of the chain with this limit. -/
theorem runStageLoose_of_toInt {limit : Value} {L : Int} (h : limit.toInt = .ok L)
    (program : List Int) (stage phase signal : Int) :
    runStageLoose program limit stage phase signal =
      (runStage ⟨program, L⟩ stage phase signal).mapError .fault := by
  rw [runStageLoose, loose, h]
  rfl

/-- Runs a chain under a loose limit. -/
def runLoose (program : List Int) (limit : Value) (phases : List Int) : Except RunFailure Int := do
  (checkPhases phases).mapError .fault
  let c ← loose program limit
  (c.run phases).mapError .fault

/-- A chain under a limit that is a number runs as the chain with this limit. -/
theorem runLoose_of_toInt {limit : Value} {L : Int} (h : limit.toInt = .ok L)
    (program phases : List Int) :
    runLoose program limit phases = (run ⟨program, L⟩ phases).mapError .fault := by
  rw [runLoose, loose, h]
  cases hcheck : checkPhases phases with
  | ok u => rfl
  | error e =>
    rw [run, hcheck]
    rfl

/-- Searches the best order of phases under a loose limit. -/
def searchLoose (program : List Int) (limit : Value) (pool : List Int) :
    Except RunFailure Finding := do
  (checkPhases pool).mapError .fault
  let c ← loose program limit
  (c.search pool).mapError .fault

/-- What a chain reports under a loose limit: nothing if the limit is no number. -/
def looseEvents (program : List Int) (limit : Value) (events : Chain → List Event) : List Event :=
  match loose program limit with
  | .ok c => events c
  | .error _ => []

end Chain

end Intcode
