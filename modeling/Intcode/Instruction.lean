import Intcode.Operand

/-!
# Instructions

A decoded instruction: an operation together with its operands. The four
operations with two sources and a destination share a form, as do the two jumps.
`Instruction.cells` writes an instruction down again.
-/

namespace Intcode

/-- An operation on two values. -/
inductive BinaryOp where
  | add
  | multiply
  | lessThan
  | equals
  deriving DecidableEq, Repr

namespace BinaryOp

/-- The result of the operation; a comparison gives 1 or 0. -/
def apply : BinaryOp → Int → Int → Int
  | add, a, b => a + b
  | multiply, a, b => a * b
  | lessThan, a, b => if a < b then 1 else 0
  | equals, a, b => if a = b then 1 else 0

/-- The operation of the machine. -/
def opcode : BinaryOp → Opcode
  | add => .add
  | multiply => .multiply
  | lessThan => .lessThan
  | equals => .equals

end BinaryOp

/-- A decoded instruction. -/
inductive Instruction where
  /-- Stores the result of an operation on two sources. -/
  | binary (op : BinaryOp) (left right dest : Operand)
  /-- Reads a value from the channel and stores it. -/
  | input (dest : Operand)
  /-- Writes a value to the channel. -/
  | output (source : Operand)
  /-- Goes to the target if "the condition is not zero" is `sense`. -/
  | jump (sense : Bool) (condition target : Operand)
  /-- Stops the machine. -/
  | halt
  deriving DecidableEq, Repr

namespace Instruction

/-- The operation of an instruction. -/
def opcode : Instruction → Opcode
  | binary op .. => op.opcode
  | input _ => .input
  | output _ => .output
  | jump true .. => .jumpIfTrue
  | jump false .. => .jumpIfFalse
  | halt => .halt

/-- The operands in order of their slots. -/
def operands : Instruction → List Operand
  | binary _ left right dest => [left, right, dest]
  | input dest => [dest]
  | output source => [source]
  | jump _ condition target => [condition, target]
  | halt => []

/-- The operand that is stored through, if there is one. -/
def destination? : Instruction → Option Operand
  | binary _ _ _ dest => some dest
  | input dest => some dest
  | output _ | jump .. | halt => none

/-- How many cells the instruction occupies. -/
def length (i : Instruction) : Nat := i.opcode.length

/-- An instruction has as many operands as its operation takes. -/
theorem length_operands (i : Instruction) : i.operands.length = i.opcode.arity := by
  cases i with
  | binary op => cases op <;> rfl
  | jump sense => cases sense <;> rfl
  | _ => rfl

/-- The digit that writes a mode. -/
def modeDigit : Mode → Int
  | .position => 0
  | .immediate => 1

/-- The modes of operands as the digits above the code, lowest slot first. -/
def modeWord : List Operand → Int
  | [] => 0
  | o :: rest => modeDigit o.mode + 10 * modeWord rest

/-- The cells that write the instruction down: its word and its operands. -/
def cells (i : Instruction) : List Int :=
  (i.opcode.code + 100 * modeWord i.operands) :: i.operands.map Operand.cell

/-- The instruction as traces show it. -/
def mnemonic (i : Instruction) : String :=
  match i.operands with
  | [] => i.opcode.name
  | operands => i.opcode.name ++ " " ++ ", ".intercalate (operands.map Operand.text)

end Instruction

end Intcode
