import Intcode.Memory

/-!
# Operands

An operand of a decoded instruction names a cell or is a value itself. Only an
operand that names a cell can be stored through.
-/

namespace Intcode

/-- How an operand cell is meant. -/
inductive Mode where
  /-- The cell holds an address. -/
  | position
  /-- The cell holds the value. -/
  | immediate
  deriving DecidableEq, Repr

/-- An operand of a decoded instruction. -/
inductive Operand where
  /-- The cell at an address. -/
  | address (index : Int)
  /-- The value itself. -/
  | value (value : Int)
  deriving DecidableEq, Repr

namespace Operand

/-- The operand that a cell stands for in a mode. -/
def ofCell (cell : Int) : Mode → Operand
  | .position => .address cell
  | .immediate => .value cell

/-- The cell that stands for the operand. -/
def cell : Operand → Int
  | .address i => i
  | .value v => v

/-- The mode in which the operand is written. -/
def mode : Operand → Mode
  | .address _ => .position
  | .value _ => .immediate

@[simp] theorem ofCell_cell_mode (o : Operand) : ofCell o.cell o.mode = o := by
  cases o <;> rfl

@[simp] theorem cell_ofCell (x : Int) (mode : Mode) : (ofCell x mode).cell = x := by
  cases mode <;> rfl

@[simp] theorem mode_ofCell (x : Int) (m : Mode) : (ofCell x m).mode = m := by
  cases m <;> rfl

/-- The value of the operand. -/
def load (memory : Memory) : Operand → Except Fault Int
  | .address i => memory.read i
  | .value v => .ok v

/-- The address to which a store through the operand goes. -/
def target (memory : Memory) : Operand → Except Fault Int
  | .address i => memory.locate i
  | .value v => .error (.storeThroughValue v)

/-- Writes a word through the operand. -/
def store (memory : Memory) (value : Int) (dest : Operand) : Except Fault Memory :=
  (dest.target memory).map (memory.put · value)

/-- The operand as traces show it. -/
def text : Operand → String
  | .address i => "[" ++ toString i ++ "]"
  | .value v => "#" ++ toString v

end Operand

end Intcode
