import Intcode.Instruction

/-!
# Events

What a run reports about itself. The log is a list of events; their text is made
only when the log is shown. All events are for debugging, save the one that tells
that a run from the command line failed.
-/

namespace Intcode

/-- Where a machine stands. -/
inductive Status where
  | running
  | halted
  | errored
  deriving DecidableEq, Repr

/-- The name of a status. -/
def Status.name : Status → String
  | running => "running"
  | halted => "halted"
  | errored => "errored"

/-- How grave an event is. -/
inductive Level where
  | debug
  | error
  deriving DecidableEq, Repr

/-- The name of a level. -/
def Level.name : Level → String
  | debug => "DEBUG"
  | error => "ERROR"

/-- Something that happened during a run. -/
inductive Event where
  /-- A program image was read from a file. -/
  | imageRead (cells : Nat) (path : String)
  /-- A machine was loaded. -/
  | loaded (cells : Nat)
  /-- An instruction was decoded and is about to be executed. -/
  | decoded (status : Status) (tick : Nat) (pointer : Int) (instruction : Instruction)
  /-- A value was read from the terminal. -/
  | lineRead (value : Int)
  /-- A value is written to the terminal. -/
  | lineWritten (value : Int)
  /-- The machine executes its halt instruction. -/
  | haltReached
  /-- The machine failed. -/
  | failed (tick : Nat) (pointer : Int) (cause : Fault)
  /-- A run came to its end. -/
  | finished (status : Status) (ticks : Nat)
  /-- A stage of a chain returned a signal. -/
  | stageReturned (stage phase signal result : Int) (ticks : Nat)
  /-- A search found the best order of phases. -/
  | bestFound (signal : Int) (phases : List Int)
  /-- A program run from the command line halted. -/
  | programHalted (ticks : Nat)
  /-- A program run from the command line failed. -/
  | programFailed (cause : Fault)
  deriving DecidableEq, Repr

namespace Event

/-- How grave the event is. -/
def level : Event → Level
  | programFailed _ => .error
  | _ => .debug

/-- Is the event the trace of an instruction? -/
def isTrace : Event → Bool
  | decoded .. => true
  | _ => false

/-- A text, with spaces behind it up to a width. -/
def padRight (width : Nat) (s : String) : String :=
  s ++ String.ofList (List.replicate (width - s.length) ' ')

/-- A text, with spaces before it up to a width. -/
def padLeft (width : Nat) (s : String) : String :=
  String.ofList (List.replicate (width - s.length) ' ') ++ s

/-- An order of phases between parentheses. -/
def tuple (phases : List Int) : String :=
  "(" ++ ", ".intercalate (phases.map toString) ++ ")"

/-- The text of an event. -/
def message : Event → String
  | imageRead cells path => s!"load_image: {cells} cells from {path}"
  | loaded cells => s!"Datapath: {cells} cells loaded"
  | decoded status tick pointer instruction =>
    "STATE: " ++ padRight 8 status.name ++ " STEP: " ++ padRight 10 "DECODE" ++
      " TICK: " ++ padLeft 6 (toString tick) ++ " IP: " ++ padLeft 5 (toString pointer) ++
      "\tINSTR: " ++ instruction.mnemonic
  | lineRead value => s!"[STDIO IN] {value}"
  | lineWritten value => s!"[STDIO OUT] {value}"
  | haltReached => "HALT encountered"
  | failed tick pointer cause => s!"[tick {tick}] IP {pointer}: " ++ cause.message ++ " -> ERRORED"
  | finished status ticks => s!"run finished: state={status.name} ticks={ticks}"
  | stageReturned stage phase signal result ticks =>
    s!"amplifier stage {stage}: phase={phase} in={signal} out={result} ticks={ticks}"
  | bestFound signal phases => s!"find_max_signal: best {signal} with phases " ++ tuple phases
  | programHalted ticks => s!"CLI: program halted after {ticks} ticks"
  | programFailed cause => "Machine error: " ++ cause.message

/-- The line of an event in a log: its level and its text. -/
def line (e : Event) : String := e.level.name ++ " " ++ e.message

end Event

end Intcode
