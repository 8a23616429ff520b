import Intcode.Machine.Log

/-!
# Commands

Everything that can be asked of a machine from outside, as data: to step or run,
to execute an instruction whatever the status, to look at and change memory, the
pointer and the channel. `Machine.perform` carries a command out; a sequence of
commands is a session with the machine.
-/

namespace Intcode

/-- Something asked of a machine. -/
inductive Command where
  | step
  | run
  /-- Executes an instruction, whatever the status, and counts no tick. -/
  | exec (instruction : Instruction)
  /-- Decodes the instruction at the pointer. -/
  | decode
  | load (operand : Operand)
  | store (operand : Operand) (value : Int)
  /-- Reads a value from the channel. -/
  | readInput
  /-- Writes a value to the channel. -/
  | writeOutput (value : Int)
  /-- Reads a cell. -/
  | peek (address : Int)
  /-- Writes a cell. -/
  | poke (address value : Int)
  /-- Sets the instruction pointer. -/
  | setPointer (value : Int)
  /-- Adds a value for a later read. -/
  | push (value : Int)
  /-- Checks that the channel's fixture is used up. -/
  | finish
  deriving DecidableEq, Repr

/-- What a command that succeeds answers. -/
inductive Reply where
  | done
  | value (value : Int)
  | status (status : Status)
  | instruction (instruction : Instruction)
  deriving DecidableEq, Repr

namespace Machine

/-- A result as an answer of the given form, with the machine after it. -/
def reply {α : Type} (form : α → Reply) (r : Except Fault α × Machine) :
    Except Fault Reply × Machine :=
  (r.1.map form, r.2)

/-- The machine with a new memory, or as it was if there is none. -/
def withMemory (m : Machine) (r : Except Fault Memory) : Except Fault Reply × Machine :=
  match r with
  | .ok memory => (.ok .done, { m with memory })
  | .error e => (.error e, m)

/-- Carries out a command: the answer or the fault, and the machine after it. -/
def perform (m : Machine) : Command → Except Fault Reply × Machine
  | .step => reply .status m.step
  | .run => reply .status m.run
  | .exec i => reply (fun _ => .done) (m.exec i)
  | .decode => ((Instruction.decode m.memory.cells m.ip).map .instruction, m)
  | .load operand => ((m.load operand).map .value, m)
  | .store operand value => m.withMemory (operand.store m.memory value)
  | .readInput =>
    let (result, channel) := m.channel.read
    (result.map .value, { m with channel })
  | .writeOutput value =>
    let (result, channel) := m.channel.write value
    (result.map fun _ => .done, { m with channel })
  | .peek address => ((m.memory.read address).map .value, m)
  | .poke address value => m.withMemory (m.memory.write address value)
  | .setPointer value => (.ok .done, { m with ip := value })
  | .push value => (.ok .done, { m with channel := m.channel.push value })
  | .finish => (m.channel.finish.map fun _ => .done, m)

/-- What a command reports. -/
def commandEvents (m : Machine) : Command → List Event
  | .step => m.stepEvents
  | .run => m.runEvents
  | .exec i => m.execEvents i
  | .readInput => m.channel.readEvents
  | .writeOutput value => m.channel.writeEvents value
  | _ => []

/-- Carries out a command up to `n` times, and stops after a time that failed. Each answer comes
with the machine after it, the latest last. -/
def performTimes (command : Command) :
    Nat → Machine → List (Except Fault Reply × Machine)
  | 0, _ => []
  | n + 1, m =>
    match m.perform command with
    | (.ok r, m') => (.ok r, m') :: performTimes command n m'
    | failed => [failed]

end Machine

end Intcode
