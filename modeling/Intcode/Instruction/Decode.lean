import Intcode.Instruction

/-!
# Decoding

An instruction word holds its operation in the last two digits and the modes of
its operands in the three digits above them, the lowest first. Higher digits mean
nothing. All three modes are checked, whether the operation uses them or not, and
before the operation itself.

Decoding fails for the first of these reasons that applies: the offset is outside,
the word is negative, a mode digit is not 0 or 1, no operation has the code, cells
are missing, the destination is in immediate mode.
-/

namespace Intcode

/-- The digit of `raw` that holds the mode of operand `slot`; the hundreds are slot 0. -/
def Mode.digit (raw : Int) (slot : Nat) : Int := raw / (100 * Nat.pow 10 slot : Nat) % 10

/-- The mode of operand `slot` of an instruction word. -/
def Mode.decode (raw : Int) (slot : Nat) : Except Fault Mode :=
  match Mode.digit raw slot with
  | 0 => .ok .position
  | 1 => .ok .immediate
  | digit => .error (.unsupportedMode digit)

/-- The parts of an instruction word. -/
structure Opword where
  opcode : Opcode
  mode0 : Mode
  mode1 : Mode
  mode2 : Mode
  deriving DecidableEq, Repr

/-- Splits an instruction word into its parts. -/
def Opword.decode (raw : Int) : Except Fault Opword :=
  if raw < 0 then .error (.unsupportedOperation raw)
  else do
    let mode0 ← Mode.decode raw 0
    let mode1 ← Mode.decode raw 1
    let mode2 ← Mode.decode raw 2
    match Opcode.ofCode? (raw % 100) with
    | some opcode => .ok ⟨opcode, mode0, mode1, mode2⟩
    | none => .error (.unsupportedOperation (raw % 100))

/-- The destination that a cell stands for in a mode. -/
def Operand.destination (cell : Int) : Mode → Except Fault Operand
  | .position => .ok (.address cell)
  | .immediate => .error .immediateDestination

namespace Instruction

/-- An operation on two values with its operand cells. -/
def decodeBinary (op : BinaryOp) (word : Opword) (a b c : Int) : Except Fault Instruction :=
  (Operand.destination c word.mode2).map
    (.binary op (.ofCell a word.mode0) (.ofCell b word.mode1))

/-- The instruction of an instruction word and the cells after it. -/
def assemble (word : Opword) (a b c : Int) : Except Fault Instruction :=
  match word.opcode with
  | .add => decodeBinary .add word a b c
  | .multiply => decodeBinary .multiply word a b c
  | .lessThan => decodeBinary .lessThan word a b c
  | .equals => decodeBinary .equals word a b c
  | .input => (Operand.destination a word.mode0).map .input
  | .output => .ok (.output (.ofCell a word.mode0))
  | .jumpIfTrue => .ok (.jump true (.ofCell a word.mode0) (.ofCell b word.mode1))
  | .jumpIfFalse => .ok (.jump false (.ofCell a word.mode0) (.ofCell b word.mode1))
  | .halt => .ok .halt

/-- Decodes the instruction that starts at an offset. Cells past the end are never part of it:
they are only looked for behind the check that the instruction fits. -/
def decode (cells : Array Int) (offset : Int) : Except Fault Instruction :=
  if 0 ≤ offset ∧ offset < cells.size then do
    let start := offset.toNat
    let word ← Opword.decode (cells.getD start 0)
    if start + word.opcode.length > cells.size then
      .error (.truncated word.opcode offset (cells.size - offset))
    else
      assemble word (cells.getD (start + 1) 0) (cells.getD (start + 2) 0) (cells.getD (start + 3) 0)
  else .error (.pointerOutside offset cells.size)

end Instruction

end Intcode
