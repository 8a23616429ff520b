/-!
# Operations

The nine operations of the machine, with their codes, names and lengths. An
instruction occupies one cell for its operation and one for each operand.

* `Opcode.ofCode?_eq_some_iff`: a code names exactly one operation.
-/

namespace Intcode

/-- An operation of the machine. -/
inductive Opcode where
  | add
  | multiply
  | input
  | output
  | jumpIfTrue
  | jumpIfFalse
  | lessThan
  | equals
  | halt
  deriving DecidableEq, Repr

namespace Opcode

/-- The code of the operation: the last two digits of an instruction word. -/
def code : Opcode → Nat
  | add => 1
  | multiply => 2
  | input => 3
  | output => 4
  | jumpIfTrue => 5
  | jumpIfFalse => 6
  | lessThan => 7
  | equals => 8
  | halt => 99

/-- The operation with the given code. -/
def ofCode? : Int → Option Opcode
  | 1 => some add
  | 2 => some multiply
  | 3 => some input
  | 4 => some output
  | 5 => some jumpIfTrue
  | 6 => some jumpIfFalse
  | 7 => some lessThan
  | 8 => some equals
  | 99 => some halt
  | _ => none

/-- **A code names exactly one operation.** -/
theorem ofCode?_eq_some_iff {n : Int} {op : Opcode} : ofCode? n = some op ↔ n = op.code := by
  constructor
  · intro h
    unfold ofCode? at h
    split at h <;> cases h <;> rfl
  · rintro rfl
    cases op <;> rfl

/-- The name shown in traces and messages. -/
def name : Opcode → String
  | add => "ADD"
  | multiply => "MULTIPLY"
  | input => "INPUT"
  | output => "OUTPUT"
  | jumpIfTrue => "JUMP_IF_TRUE"
  | jumpIfFalse => "JUMP_IF_FALSE"
  | lessThan => "LESS_THAN"
  | equals => "EQUALS"
  | halt => "HALT"

/-- How many operands the operation takes. -/
def arity : Opcode → Nat
  | add | multiply | lessThan | equals => 3
  | jumpIfTrue | jumpIfFalse => 2
  | input | output => 1
  | halt => 0

/-- How many cells an instruction of this operation occupies. -/
def length (op : Opcode) : Nat := op.arity + 1

end Opcode

end Intcode
