import Intcode.Channel
import Intcode.Event
import Intcode.Instruction.Decode

/-!
# The machine

Memory, a channel and an instruction pointer, with a count of the instructions
executed and a limit on it. A step decodes the instruction at the pointer and
executes it; a run repeats steps until the machine halts or fails.

An operation that may fail gives its result together with the machine as it left
it: a value that was read stays read, even if it could not be stored.

* `Machine.run`: steps are repeated at most as often as the limit allows, so a run
  always ends.
* `Machine.fail_changes`: what a failure touches.
-/

namespace Intcode

/-- A machine between two instructions. -/
structure Machine where
  memory : Memory
  channel : Channel
  /-- The instruction pointer. -/
  ip : Int := 0
  /-- How many instructions were executed. -/
  tick : Nat := 0
  /-- How many instructions may be executed. -/
  tickLimit : Int
  /-- Is the trace left out of the log? -/
  lenient : Bool := false
  status : Status := .running
  /-- Why the machine failed. -/
  error : Option Fault := none
  deriving DecidableEq, Repr

namespace Machine

/-- How many instructions may be executed where no limit is given. -/
def defaultTickLimit : Int := 1000000

/-- A machine at the start of an image. -/
def boot (image : List Int) (channel : Channel) (tickLimit : Int) (lenient : Bool) : Machine :=
  { memory := .ofImage image, channel, tickLimit, lenient }

/-- The value of an operand. -/
def load (m : Machine) (operand : Operand) : Except Fault Int := operand.load m.memory

/-- Stores a value through an operand and goes on at a pointer. -/
def storeThen (m : Machine) (dest : Operand) (value next : Int) : Except Fault Unit × Machine :=
  match dest.target m.memory with
  | .ok address => (.ok (), { m with memory := m.memory.put address value, ip := next })
  | .error e => (.error e, m)

/-- Writes a value to the channel and goes on at a pointer. The machine is taken apart first, so that
nothing else holds the channel while it grows. -/
def emitThen (m : Machine) (value next : Int) : Except Fault Unit × Machine :=
  match m with
  | ⟨memory, channel, ip, tick, tickLimit, lenient, status, error⟩ =>
    match channel.write value with
    | (.ok (), channel) => (.ok (), ⟨memory, channel, next, tick, tickLimit, lenient, status, error⟩)
    | (.error e, channel) => (.error e, ⟨memory, channel, ip, tick, tickLimit, lenient, status, error⟩)

/-- The result of an operation on two operands. The left one is loaded first. -/
def compute (m : Machine) (op : BinaryOp) (left right : Operand) : Except Fault Int := do
  let a ← m.load left
  let b ← m.load right
  return op.apply a b

/-- Where a jump goes. The target is loaded only if the jump is taken. -/
def jumpTarget (m : Machine) (sense : Bool) (condition target : Operand) (next : Int) :
    Except Fault Int := do
  let c ← m.load condition
  if decide (c ≠ 0) = sense then m.load target else return next

/-- Executes an instruction and moves the pointer. -/
def exec (m : Machine) (i : Instruction) : Except Fault Unit × Machine :=
  let next := m.ip + i.length
  match i with
  | .binary op left right dest =>
    match m.compute op left right with
    | .ok v => m.storeThen dest v next
    | .error e => (.error e, m)
  | .input dest =>
    match m.channel.read with
    | (.ok v, channel) => { m with channel }.storeThen dest v next
    | (.error e, channel) => (.error e, { m with channel })
  | .output source =>
    match m.load source with
    | .ok v => m.emitThen v next
    | .error e => (.error e, m)
  | .jump sense condition target =>
    match m.jumpTarget sense condition target next with
    | .ok ip => (.ok (), { m with ip })
    | .error e => (.error e, m)
  | .halt => (.ok (), { m with status := .halted })

/-- The instruction at the pointer, if another one may be executed. -/
def fetch (m : Machine) : Except Fault Instruction :=
  if m.tick ≥ m.tickLimit then .error (.tickLimit m.tickLimit m.ip)
  else Instruction.decode m.memory.cells m.ip

/-- Fetches an instruction and executes it. -/
def cycle (m : Machine) : Except Fault Unit × Machine :=
  match m.fetch with
  | .ok i => m.exec i
  | .error e => (.error e, m)

/-- The machine after a failure. A fault is recorded with its text: where that cannot be written,
nothing is recorded, and the machine is left as it was, running. -/
def fail (m : Machine) (cause : Fault) : Machine :=
  if cause.writable then { m with status := .errored, error := some cause } else m

/-- A fault whose text can be written is recorded. -/
theorem fail_of_writable {m : Machine} {e : Fault} (h : e.writable = true) :
    m.fail e = { m with status := .errored, error := some e } := if_pos h

/-- Any other fault leaves the machine as it was. -/
theorem fail_of_unwritable {m : Machine} {e : Fault} (h : e.writable = false) : m.fail e = m :=
  if_neg (by rw [h]; decide)

/-- **All that a failure touches** is the status, and the cause that is recorded. -/
theorem fail_changes (m : Machine) (e : Fault) :
    ∃ status error, m.fail e = { m with status, error } := by
  unfold fail
  split
  · exact ⟨_, _, rfl⟩
  · exact ⟨m.status, m.error, rfl⟩

theorem fail_status (m : Machine) (e : Fault) :
    (m.fail e).status = if e.writable then .errored else m.status := by
  unfold fail
  split <;> rfl

theorem fail_error (m : Machine) (e : Fault) :
    (m.fail e).error = if e.writable then some e else m.error := by
  unfold fail
  split <;> rfl

@[simp] theorem fail_memory (m : Machine) (e : Fault) : (m.fail e).memory = m.memory := by
  obtain ⟨_, _, h⟩ := fail_changes m e; rw [h]

@[simp] theorem fail_channel (m : Machine) (e : Fault) : (m.fail e).channel = m.channel := by
  obtain ⟨_, _, h⟩ := fail_changes m e; rw [h]

@[simp] theorem fail_ip (m : Machine) (e : Fault) : (m.fail e).ip = m.ip := by
  obtain ⟨_, _, h⟩ := fail_changes m e; rw [h]

@[simp] theorem fail_tick (m : Machine) (e : Fault) : (m.fail e).tick = m.tick := by
  obtain ⟨_, _, h⟩ := fail_changes m e; rw [h]

@[simp] theorem fail_tickLimit (m : Machine) (e : Fault) : (m.fail e).tickLimit = m.tickLimit := by
  obtain ⟨_, _, h⟩ := fail_changes m e; rw [h]

@[simp] theorem fail_lenient (m : Machine) (e : Fault) : (m.fail e).lenient = m.lenient := by
  obtain ⟨_, _, h⟩ := fail_changes m e; rw [h]

/-- Executes one instruction. A machine that has halted or failed is left as it is. -/
def step (m : Machine) : Except Fault Status × Machine :=
  match m.status with
  | .running =>
    match m.cycle with
    | (.ok (), m') => (.ok m'.status, { m' with tick := m'.tick + 1 })
    | (.error e, m') => (.error e, m'.fail e)
  | status => (.ok status, m)

/-- Repeats steps, at most `n` of them, until the machine stops running. -/
def runFor : Nat → Machine → Except Fault Status × Machine
  | 0, m => (.ok m.status, m)
  | n + 1, m =>
    match m.step with
    | (.ok .running, m') => runFor n m'
    | stopped => stopped

/-- How many steps a run takes at most: those that the limit leaves, and the one that fails at it. -/
def budget (m : Machine) : Nat := (m.tickLimit - m.tick).toNat + 1

/-- Runs the machine until it halts or fails. -/
def run (m : Machine) : Except Fault Status × Machine := runFor m.budget m

end Machine

end Intcode
