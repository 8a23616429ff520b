import Intcode.Opcode
import Intcode.Word

/-!
# Faults

Everything that can go wrong while a machine, a channel or a chain of machines
runs. A fault records its cause. Its text is made when it is raised, and where that
names a number which is too long to be written there is no such text: what is raised
then only says so, and belongs to none of the families of faults.

* `Fault.kind`: the family that a fault belongs to.
* `Fault.message`: its text.
* `Fault.kind_eq_iff`: a fault is raised as one of the family of its cause exactly if
  its text can be written.
-/

namespace Intcode

/-- The families of faults. -/
inductive FaultKind where
  /-- The word at the instruction pointer is no instruction. -/
  | decode
  /-- A destination is not an address. -/
  | addressing
  /-- An access outside of memory. -/
  | bounds
  /-- The run is longer than allowed. -/
  | tickLimit
  /-- An input line is no word. -/
  | channel
  /-- Input is wanted and none remains. -/
  | exhausted
  /-- The traffic is not what the fixture prescribes. -/
  | fixture
  /-- The chain has too few stages. -/
  | chain
  /-- A stage wrote nothing. -/
  | stage
  /-- A number is too long to be written. This is no fault of a machine. -/
  | unwritten
  deriving DecidableEq, Repr

/-- The cause of a failure. -/
inductive Fault where
  /-- No operation has this code. -/
  | unsupportedOperation (code : Int)
  /-- No addressing mode has this digit. -/
  | unsupportedMode (digit : Int)
  /-- The instruction at `offset` runs past the end of memory. -/
  | truncated (op : Opcode) (offset : Int) (left : Int)
  /-- The destination of the instruction is written in immediate mode. -/
  | immediateDestination
  /-- A store through an operand that is a value. -/
  | storeThroughValue (value : Int)
  /-- The instruction pointer is outside of a memory of `size` cells. -/
  | pointerOutside (pointer : Int) (size : Nat)
  /-- The address is outside of a memory of `size` cells. -/
  | addressOutside (address : Int) (size : Nat)
  /-- As many instructions were executed as allowed. -/
  | tickLimit (limit pointer : Int)
  /-- The terminal has no further line. -/
  | endOfStream
  /-- A line of the terminal is no word. -/
  | badLine (cause : WordError)
  /-- All values of the fixture were read. -/
  | fixtureDrained (held : Nat)
  /-- The queue is empty. -/
  | queueEmpty
  /-- The fixture expects no further output. -/
  | unexpectedOutput (value : Int) (expects : Nat)
  /-- The fixture expects another value. -/
  | wrongOutput (index : Nat) (expected got : Int)
  /-- Input of the fixture was left unread. -/
  | inputUnread (done total : Nat)
  /-- Output that the fixture expects is missing. -/
  | outputMissing (done total : Nat)
  /-- A chain needs two stages. -/
  | tooFewPhases (given : Nat)
  /-- The stage halted and wrote nothing. -/
  | silentStage (stage phase : Int)
  /-- The number is too long for a line of the terminal. -/
  | lineTooLong (value : Int)
  deriving DecidableEq, Repr

namespace Fault

/-- The family of the cause. -/
def family : Fault → FaultKind
  | unsupportedOperation _ | unsupportedMode _ | truncated .. => .decode
  | immediateDestination | storeThroughValue _ => .addressing
  | pointerOutside .. | addressOutside .. => .bounds
  | tickLimit .. => .tickLimit
  | badLine _ | lineTooLong _ => .channel
  | endOfStream | fixtureDrained _ | queueEmpty => .exhausted
  | unexpectedOutput .. | wrongOutput .. | inputUnread .. | outputMissing .. => .fixture
  | tooFewPhases _ => .chain
  | silentStage .. => .stage

/-- The numbers that the text of a fault names. Digits are left out, and so is the number of things
that are held in memory: these are never too long. -/
def numbers : Fault → List Int
  | unsupportedOperation code => [code]
  | storeThroughValue value => [value]
  | pointerOutside pointer _ => [pointer]
  | addressOutside address _ => [address]
  | tickLimit limit pointer => [limit, pointer]
  | unexpectedOutput value _ => [value]
  | wrongOutput _ expected got => [expected, got]
  | silentStage stage phase => [stage, phase]
  | lineTooLong value => [value]
  | _ => []

/-- Can the text of the fault be written? -/
def writable (e : Fault) : Bool := Numeral.allWritable e.numbers

/-- The family of a fault as it is raised. -/
def kind (e : Fault) : FaultKind := if e.writable then e.family else .unwritten

/-- The addresses of a memory of `size` cells, as messages show them. -/
def span (size : Nat) : String :=
  let last : Int := size - 1
  s!"(0..{last})"

/-- What there is to say of a fault. -/
def wording : Fault → String
  | unsupportedOperation code => s!"unsupported operation: {code}"
  | unsupportedMode digit => s!"unsupported parameter mode: {digit}"
  | truncated op offset left =>
    s!"instruction truncated: {op.name} at {offset} needs {op.length} cells, {left} left"
  | immediateDestination => "immediate mode is invalid for a destination"
  | storeThroughValue value => s!"store through non-address operand Value(value={value})"
  | pointerOutside pointer size => s!"instruction pointer {pointer} outside of program {span size}"
  | addressOutside address size => s!"address {address} out of memory {span size}"
  | tickLimit limit pointer => s!"tick limit {limit} exceeded at IP {pointer}"
  | endOfStream => "input exhausted: end of stream"
  | badLine cause => "bad input line (expected a 32-bit integer): " ++ cause.message
  | fixtureDrained held => s!"input exhausted: fixture holds {held} value(s)"
  | queueEmpty => "input exhausted: queue is empty"
  | unexpectedOutput value expects =>
    s!"unexpected output {value}: fixture expects {expects} value(s)"
  | wrongOutput index expected got => s!"invalid output #{index}: expected {expected}, got {got}"
  | inputUnread done total => s!"not all input was read: {done} of {total}"
  | outputMissing done total => s!"not all output was produced: {done} of {total}"
  | tooFewPhases given => s!"there should be at least 2 phase settings, got {given}"
  | silentStage stage phase => s!"stage {stage} (phase {phase}) did not return any output"
  | lineTooLong value => s!"{value}"

/-- The text of a fault as it is raised. -/
def message (e : Fault) : String := if e.writable then e.wording else Numeral.limitMessage ""

/-- **A fault is raised as one of the family of its cause** exactly if its text can be written. -/
theorem kind_eq_iff {e : Fault} {k : FaultKind} (hk : k ≠ .unwritten) :
    e.kind = k ↔ e.family = k ∧ e.writable = true := by
  unfold kind
  split
  · next hw => simp [hw]
  · next hw => simp [hw, hk.symm]

theorem kind_of_writable {e : Fault} (h : e.writable = true) : e.kind = e.family := if_pos h

/-- Any other fault belongs to no family. -/
theorem kind_eq_unwritten_iff {e : Fault} : e.kind = .unwritten ↔ e.writable = false := by
  unfold kind
  split
  · next hw =>
    have hfamily : e.family ≠ .unwritten := by cases e <;> simp [family]
    simp [hw, hfamily]
  · next hw => simpa using hw

end Fault

end Intcode
