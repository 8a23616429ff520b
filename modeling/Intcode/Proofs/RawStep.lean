import Intcode.Proofs.Decoding
import Intcode.Proofs.Run

/-!
# The meaning of raw words

A second account of what a step does, straight from the words in memory: there is
no instruction and no operand between the cells and their effect. An instruction
word is taken apart by division, an operand is fetched where it is used, and
whatever is out of order makes the step fail, without saying why.

* `Raw.State.step?`: the step on raw words.
* `step_raw`: a machine on a queue that may take a step takes this one.
-/

namespace Intcode

namespace Raw

/-- The part of a machine on a queue that a step looks at and changes. -/
structure State where
  cells : List Int
  ip : Int
  pending : List Int
  outputs : List Int
  halted : Bool := false
  deriving DecidableEq, Repr

/-- The mode digit of the operand that stands `k` cells behind the word `w`. -/
def digit (w : Int) (k : Nat) : Int := w / (Nat.pow 10 (k + 1) : Nat) % 10

/-- How many operands follow a word with this code. -/
def operands? : Int → Option Nat
  | 1 | 2 | 7 | 8 => some 3
  | 5 | 6 => some 2
  | 3 | 4 => some 1
  | 99 => some 0
  | _ => none

namespace State

/-- The cell at an address, if there is one. -/
def cell? (s : State) (a : Int) : Option Int := if 0 ≤ a then s.cells[a.toNat]? else none

/-- The value of the operand `k` cells behind the word: the cell itself, or the cell it names. -/
def source? (s : State) (w : Int) (k : Nat) : Option Int := do
  let x ← s.cell? (s.ip + k)
  if digit w k = 1 then some x else s.cell? x

/-- Writes a value to the cell that the operand `k` cells behind the word names, and goes on. -/
def store? (s : State) (w : Int) (k : Nat) (v next : Int) : Option State := do
  let x ← s.cell? (s.ip + k)
  if digit w k = 1 then none
  else if 0 ≤ x ∧ x < s.cells.length then
    some { s with cells := s.cells.set x.toNat v, ip := next }
  else none

/-- Computes a value from two operands and stores it through the third. -/
def compute? (s : State) (w next : Int) (f : Int → Int → Int) : Option State := do
  let a ← s.source? w 1
  let b ← s.source? w 2
  s.store? w 3 (f a b) next

/-- Stores the next input through the operand. -/
def receive? (s : State) (w next : Int) : Option State :=
  match s.pending with
  | [] => none
  | v :: rest => { s with pending := rest }.store? w 1 (Word.wrap v) next

/-- Appends the operand to the outputs. -/
def emit? (s : State) (w next : Int) : Option State := do
  let v ← s.source? w 1
  some { s with outputs := s.outputs ++ [v], ip := next }

/-- Goes to the second operand if the first one meets a condition. -/
def branch? (s : State) (w next : Int) (taken : Int → Bool) : Option State := do
  let c ← s.source? w 1
  if taken c then
    let target ← s.source? w 2
    some { s with ip := target }
  else some { s with ip := next }

/-- Carries out the word `w`, whose operands are all there. -/
def execute? (s : State) (w next : Int) : Option State :=
  match w % 100 with
  | 1 => s.compute? w next fun a b => Word.wrap (a + b)
  | 2 => s.compute? w next fun a b => Word.wrap (a * b)
  | 3 => s.receive? w next
  | 4 => s.emit? w next
  | 5 => s.branch? w next fun c => c ≠ 0
  | 6 => s.branch? w next fun c => c = 0
  | 7 => s.compute? w next fun a b => if a < b then 1 else 0
  | 8 => s.compute? w next fun a b => if a = b then 1 else 0
  | 99 => some { s with halted := true }
  | _ => none

/-- **A step on raw words.** -/
def step? (s : State) : Option State := do
  let w ← s.cell? s.ip
  let n ← operands? (w % 100)
  if w < 0 ∨ 1 < digit w 1 ∨ 1 < digit w 2 ∨ 1 < digit w 3 then none
  else if s.cells.length ≤ s.ip + n then none
  else s.execute? w (s.ip + (n + 1))

end State

end Raw

namespace Machine

/-- What a step on raw words sees of a machine on a queue. -/
def raw (m : Machine) (q : Queue) : Raw.State :=
  { cells := m.memory.toList, ip := m.ip, pending := q.pending, outputs := q.outputs.toList }

/-- The machine that a step on raw words makes of `m`. -/
def withRaw (m : Machine) (s : Raw.State) : Machine :=
  { m with
    memory := ⟨s.cells.toArray⟩, ip := s.ip, channel := .queue ⟨s.pending, s.outputs.toArray⟩,
    status := if s.halted then .halted else m.status }

/-- A result on raw words and a result of the machine `m` say the same. -/
def Matches (m : Machine) (s : Option Raw.State) (r : Except Fault Unit × Machine) : Prop :=
  match s with
  | some s => r = (.ok (), m.withRaw s)
  | none => ∃ e, r.1 = .error e

variable {m : Machine} {q : Queue}

theorem raw_cell? (a : Int) : (m.raw q).cell? a = m.memory.get? a := by
  simp [Raw.State.cell?, raw, Memory.get?, Memory.toList]

/-- A write to the raw words is a write to memory. -/
theorem withRaw_put (m : Machine) (q : Queue) (a v next : Int) :
    m.withRaw { m.raw q with cells := m.memory.toList.set a.toNat (Word.wrap v), ip := next } =
      { m with memory := m.memory.put a v, channel := .queue q, ip := next } := by
  have hput : (⟨(m.memory.toList.set a.toNat (Word.wrap v)).toArray⟩ : Memory) = m.memory.put a v := by
    rw [Memory.put, Memory.toList, ← List.setIfInBounds_toArray, Array.toArray_toList]
  simp only [withRaw, raw, hput, Array.toArray_toList]
  rfl

theorem raw_digit (w : Int) (slot : Nat) : Raw.digit w (slot + 1) = Mode.digit w slot := by
  have hpow : Nat.pow 10 (slot + 1 + 1) = 100 * Nat.pow 10 slot := by
    show Nat.pow 10 slot * 10 * 10 = _
    omega
  unfold Raw.digit Mode.digit
  rw [hpow]

/-- A word splits exactly when its digits name the parts. -/
theorem raw_decode_iff {w : Int} {word : Opword} :
    Opword.decode w = .ok word ↔ 0 ≤ w ∧ w % 100 = word.opcode.code ∧
      Raw.digit w 1 = Instruction.modeDigit word.mode0 ∧
      Raw.digit w 2 = Instruction.modeDigit word.mode1 ∧
      Raw.digit w 3 = Instruction.modeDigit word.mode2 := by
  rw [Opword.decode_eq_ok_iff, ← raw_digit, ← raw_digit, ← raw_digit]

/-- A source is fetched from the words as it is loaded when decoded. -/
theorem raw_source? {w x : Int} {k : Nat} {mode : Mode} (hx : (m.raw q).cell? (m.ip + k) = some x)
    (hd : Raw.digit w k = Instruction.modeDigit mode) :
    (m.raw q).source? w k = ((Operand.ofCell x mode).load m.memory).toOption := by
  have hx' : (m.raw q).cell? ((m.raw q).ip + k) = some x := hx
  simp only [Raw.State.source?, hx', hd, raw_cell?, bind, Option.bind]
  cases mode with
  | immediate => simp [Instruction.modeDigit, Operand.ofCell, Operand.load, Except.toOption]
  | position =>
    simp only [Instruction.modeDigit, Operand.ofCell, Operand.load, Memory.read]
    cases m.memory.get? x <;> rfl

/-- A store goes where the decoded destination does, and fails where that one would. -/
theorem raw_store? {w x v next : Int} {k : Nat} {mode : Mode}
    (hx : (m.raw q).cell? (m.ip + k) = some x) (hd : Raw.digit w k = Instruction.modeDigit mode) :
    (m.raw q).store? w k v next =
      ((Operand.destination x mode).bind (·.target m.memory)).toOption.map fun a =>
        { m.raw q with cells := m.memory.toList.set a.toNat v, ip := next } := by
  have hx' : (m.raw q).cell? ((m.raw q).ip + k) = some x := hx
  simp only [Raw.State.store?, hx', hd, bind, Option.bind]
  cases mode with
  | immediate => simp [Instruction.modeDigit, Operand.destination, Except.bind, Except.toOption]
  | position =>
    have hsize : (m.raw q).cells.length = m.memory.size := by simp [raw, Memory.toList, Memory.size]
    simp only [Instruction.modeDigit, Operand.destination, Except.bind, Operand.target,
      Memory.locate, Memory.Inside, hsize]
    by_cases h : 0 ≤ x ∧ x < m.memory.size
    · simp [h, Except.toOption, raw]
    · simp [h, Except.toOption]

/-- Two sources and a destination. -/
theorem matches_compute {w a b c : Int} {word : Opword} (op : BinaryOp) {f : Int → Int → Int}
    (hq : m.channel = .queue q)
    (ha : (m.raw q).cell? (m.ip + 1) = some a) (hb : (m.raw q).cell? (m.ip + 2) = some b)
    (hc : (m.raw q).cell? (m.ip + 3) = some c)
    (h0 : Raw.digit w 1 = Instruction.modeDigit word.mode0)
    (h1 : Raw.digit w 2 = Instruction.modeDigit word.mode1)
    (h2 : Raw.digit w 3 = Instruction.modeDigit word.mode2)
    (hf : ∀ x y, f x y = Word.wrap (op.apply x y)) :
    m.Matches ((m.raw q).compute? w (m.ip + op.opcode.length) f)
      (m.act (.ofExcept ((Instruction.decodeBinary op word a b c).map (·.action m.memory m.ip)))) := by
  simp only [Raw.State.compute?, raw_source? (k := 1) ha h0, raw_source? (k := 2) hb h1,
    raw_store? (k := 3) hc h2, Instruction.decodeBinary]
  -- the machine refuses the destination before it loads, the words after: both fail
  cases hdest : Operand.destination c word.mode2 with
  | error e =>
    cases (Operand.ofCell a word.mode0).load m.memory <;>
      cases (Operand.ofCell b word.mode1).load m.memory <;> exact ⟨e, rfl⟩
  | ok d =>
    simp only [Except.map, Instruction.action, Action.ofExcept]
    cases (Operand.ofCell a word.mode0).load m.memory with
    | error e => exact ⟨e, rfl⟩
    | ok x =>
      cases (Operand.ofCell b word.mode1).load m.memory with
      | error e => exact ⟨e, rfl⟩
      | ok y =>
        simp only [Except.bind, bind]
        cases d.target m.memory with
        | error e => exact ⟨e, rfl⟩
        | ok t =>
          show _ = (_, m.withRaw _)
          rw [hf, withRaw_put, ← hq]
          rfl

/-- The next input and a destination. -/
theorem matches_receive {w a : Int} {word : Opword} (hq : m.channel = .queue q)
    (ha : (m.raw q).cell? (m.ip + 1) = some a)
    (h0 : Raw.digit w 1 = Instruction.modeDigit word.mode0) :
    m.Matches ((m.raw q).receive? w (m.ip + Opcode.input.length))
      (m.act (.ofExcept (((Operand.destination a word.mode0).map Instruction.input).map
        (·.action m.memory m.ip)))) := by
  obtain ⟨pending, outputs⟩ := q
  cases pending with
  | nil =>
    show ∃ e, _
    cases Operand.destination a word.mode0 with
    | error e => exact ⟨e, rfl⟩
    | ok d =>
      refine ⟨.queueEmpty, ?_⟩
      simp [Except.map, Action.ofExcept, Instruction.action, act, hq, Channel.read, Queue.read]
  | cons v rest =>
    -- with the value gone from the queue it is a store like any other
    have hs : (m.raw ⟨v :: rest, outputs⟩).receive? w (m.ip + Opcode.input.length) =
        (m.raw ⟨rest, outputs⟩).store? w 1 (Word.wrap v) (m.ip + Opcode.input.length) := rfl
    rw [hs, raw_store? (q := ⟨rest, outputs⟩) (k := 1) ha h0]
    cases Operand.destination a word.mode0 with
    | error e => exact ⟨e, rfl⟩
    | ok d =>
      simp only [Except.map, Except.bind, Instruction.action, Action.ofExcept, act, hq, Channel.read,
        Queue.read]
      cases d.target m.memory with
      | error e => exact ⟨e, rfl⟩
      | ok t =>
        show _ = (_, m.withRaw _)
        rw [withRaw_put]
        rfl

/-- A source that is written out. -/
theorem matches_emit {w a : Int} {word : Opword} (hq : m.channel = .queue q)
    (ha : (m.raw q).cell? (m.ip + 1) = some a)
    (h0 : Raw.digit w 1 = Instruction.modeDigit word.mode0) :
    m.Matches ((m.raw q).emit? w (m.ip + Opcode.output.length))
      (m.act ((Instruction.output (.ofCell a word.mode0)).action m.memory m.ip)) := by
  simp only [Raw.State.emit?, raw_source? (k := 1) ha h0, Instruction.action]
  cases (Operand.ofCell a word.mode0).load m.memory with
  | error e => exact ⟨e, rfl⟩
  | ok v =>
    have hout : q.outputs.push v = (q.outputs.toList ++ [v]).toArray := by
      rw [← List.push_toArray, Array.toArray_toList]
    show m.act (.emit v _) = (_, m.withRaw _)
    simp [act, hq, Channel.write, Queue.write, withRaw, raw, Memory.toList, Instruction.length,
      Instruction.opcode, hout]

/-- A condition and a target. -/
theorem matches_branch {w a b : Int} {word : Opword} (sense : Bool) {taken : Int → Bool}
    (hq : m.channel = .queue q)
    (ha : (m.raw q).cell? (m.ip + 1) = some a) (hb : (m.raw q).cell? (m.ip + 2) = some b)
    (h0 : Raw.digit w 1 = Instruction.modeDigit word.mode0)
    (h1 : Raw.digit w 2 = Instruction.modeDigit word.mode1)
    (ht : ∀ c, taken c = decide (decide (c ≠ 0) = sense)) :
    m.Matches ((m.raw q).branch? w (m.ip + (2 + 1 : Nat)) taken)
      (m.act ((Instruction.jump sense (.ofCell a word.mode0) (.ofCell b word.mode1)).action
        m.memory m.ip)) := by
  have hlen : (Instruction.jump sense (.ofCell a word.mode0) (.ofCell b word.mode1)).length = 2 + 1 := by
    cases sense <;> rfl
  have hip : ∀ ip', { m with ip := ip' } = m.withRaw { m.raw q with ip := ip' } := by
    intro ip'
    simp [withRaw, raw, Memory.toList, ← hq]
  simp only [Raw.State.branch?, raw_source? (k := 1) ha h0, raw_source? (k := 2) hb h1,
    Instruction.action, hlen]
  cases (Operand.ofCell a word.mode0).load m.memory with
  | error e => exact ⟨e, rfl⟩
  | ok c =>
    simp only [Except.toOption, bind, Option.bind, Except.bind, ht, decide_eq_true_eq]
    by_cases h : decide (c ≠ 0) = sense
    · simp only [h, if_true]
      cases (Operand.ofCell b word.mode1).load m.memory with
      | error e => exact ⟨e, rfl⟩
      | ok target => exact congrArg _ (hip target)
    · simp only [h, if_false]
      exact congrArg _ (hip _)

/-- **A word whose operands are all there** means what it decodes to. -/
theorem matches_execute {w a b c : Int} {word : Opword} (hq : m.channel = .queue q)
    (hw : Opword.decode w = .ok word)
    (ha : 1 ≤ word.opcode.arity → (m.raw q).cell? (m.ip + 1) = some a)
    (hb : 2 ≤ word.opcode.arity → (m.raw q).cell? (m.ip + 2) = some b)
    (hc : 3 ≤ word.opcode.arity → (m.raw q).cell? (m.ip + 3) = some c) :
    m.Matches ((m.raw q).execute? w (m.ip + word.opcode.length))
      (m.act (.ofExcept ((Instruction.assemble word a b c).map (·.action m.memory m.ip)))) := by
  obtain ⟨-, hcode, h0, h1, h2⟩ := raw_decode_iff.1 hw
  -- a comparison gives a word already
  have hbit : ∀ (p : Prop) [Decidable p], (if p then 1 else 0 : Int) = Word.wrap (if p then 1 else 0) := by
    intro p _
    split <;> rfl
  unfold Raw.State.execute? Instruction.assemble
  cases hop : word.opcode <;> rw [hop] at hcode ha hb hc <;> rw [hcode]
  case add =>
    exact matches_compute .add hq (ha (by decide)) (hb (by decide)) (hc (by decide)) h0 h1 h2
      fun _ _ => rfl
  case multiply =>
    exact matches_compute .multiply hq (ha (by decide)) (hb (by decide)) (hc (by decide))
      h0 h1 h2 fun _ _ => rfl
  case lessThan =>
    exact matches_compute .lessThan hq (ha (by decide)) (hb (by decide)) (hc (by decide))
      h0 h1 h2 fun _ _ => hbit _
  case equals =>
    exact matches_compute .equals hq (ha (by decide)) (hb (by decide)) (hc (by decide))
      h0 h1 h2 fun _ _ => hbit _
  case input => exact matches_receive hq (ha (by decide)) h0
  case output => exact matches_emit hq (ha (by decide)) h0
  case jumpIfTrue =>
    exact matches_branch true hq (ha (by decide)) (hb (by decide)) h0 h1 (by simp)
  case jumpIfFalse =>
    exact matches_branch false hq (ha (by decide)) (hb (by decide)) h0 h1 (by simp)
  case halt =>
    show m.act .stop = (.ok (), m.withRaw { m.raw q with halted := true })
    simp [act, withRaw, raw, Memory.toList, ← hq]

/-- The number of operands is that of the operation with the code. -/
theorem raw_operands? (n : Int) : Raw.operands? n = (Opcode.ofCode? n).map Opcode.arity := by
  unfold Raw.operands? Opcode.ofCode?
  split <;> simp_all [Opcode.arity]

/-- A word that passes the checks on its digits splits. -/
theorem exists_opword {w : Int} {n : Nat} (hn : Raw.operands? (w % 100) = some n) (hw : 0 ≤ w)
    (h1 : Raw.digit w 1 ≤ 1) (h2 : Raw.digit w 2 ≤ 1) (h3 : Raw.digit w 3 ≤ 1) :
    ∃ word, Opword.decode w = .ok word := by
  rw [raw_operands?, Option.map_eq_some_iff] at hn
  obtain ⟨op, hop, -⟩ := hn
  have hmodal : Opword.Modal w := by
    refine ⟨hw, ?_⟩
    rw [Opword.modeDigits_eq, ← raw_digit, ← raw_digit, ← raw_digit]
    simp [h1, h2, h3]
  obtain ⟨word, hword, -⟩ := Opword.exists_decode_iff.2 ⟨hmodal, Opcode.ofCode?_eq_some_iff.1 hop⟩
  exact ⟨word, hword⟩

/-- A word that splits passes the checks on its digits. -/
theorem digits_of_opword {w : Int} {word : Opword} (h : Opword.decode w = .ok word) :
    Raw.operands? (w % 100) = some word.opcode.arity ∧
      ¬ (w < 0 ∨ 1 < Raw.digit w 1 ∨ 1 < Raw.digit w 2 ∨ 1 < Raw.digit w 3) := by
  obtain ⟨hw, hcode, h0, h1, h2⟩ := raw_decode_iff.1 h
  have hle : ∀ mode, Instruction.modeDigit mode ≤ 1 := by intro mode; cases mode <;> decide
  refine ⟨?_, ?_⟩
  · rw [raw_operands?, Opcode.ofCode?_eq_some_iff.2 hcode]; rfl
  · have := hle word.mode0
    have := hle word.mode1
    have := hle word.mode2
    rintro (h | h | h | h) <;> omega

/-- A word that does not split makes the step on raw words fail. -/
theorem step?_eq_none {s : Raw.State} {w : Int} {e : Fault} (hcell : s.cell? s.ip = some w)
    (hw : Opword.decode w = .error e) : s.step? = none := by
  simp only [Raw.State.step?, hcell, bind, Option.bind]
  cases hn : Raw.operands? (w % 100) with
  | none => rfl
  | some n =>
    by_cases hdigits : w < 0 ∨ 1 < Raw.digit w 1 ∨ 1 < Raw.digit w 2 ∨ 1 < Raw.digit w 3
    · simp only [hdigits, if_true]
    · -- else it would split
      obtain ⟨word, hw'⟩ := exists_opword hn (by omega) (by omega) (by omega) (by omega)
      rw [hw] at hw'
      cases hw'

/-- A word that splits is carried out, if its operands are all there. -/
theorem step?_eq_execute? {s : Raw.State} {w : Int} {word : Opword} (hcell : s.cell? s.ip = some w)
    (hw : Opword.decode w = .ok word) :
    s.step? = if s.cells.length ≤ s.ip + word.opcode.arity then none
      else s.execute? w (s.ip + word.opcode.length) := by
  obtain ⟨hn, hdigits⟩ := digits_of_opword hw
  simp only [Raw.State.step?, hcell, bind, Option.bind, hn, hdigits, if_false]
  rfl

/-- **The step on raw words is the action at the pointer.** -/
theorem matches_plan (hq : m.channel = .queue q) :
    m.Matches (m.raw q).step? (m.act (m.memory.plan m.ip)) := by
  unfold Memory.plan Instruction.decode
  by_cases hout : ¬ (0 ≤ m.ip ∧ m.ip < m.memory.cells.size)
  · have hnone : (m.raw q).cell? (m.raw q).ip = none := by
      rw [raw_cell?, ← Option.not_isSome_iff_eq_none, Memory.isSome_get?_iff]; exact hout
    simp only [Raw.State.step?, hnone, hout, if_false]
    exact ⟨_, rfl⟩
  have hin := Decidable.not_not.1 hout
  -- the cells that are there
  have hcell : ∀ k : Nat, m.ip + k < m.memory.cells.size →
      (m.raw q).cell? (m.ip + k) = some (m.memory.cells.getD (m.ip.toNat + k) 0) := by
    intro k hk
    have hk' : m.ip.toNat + k < m.memory.cells.size := by omega
    have hnat : (m.ip + k).toNat = m.ip.toNat + k := by omega
    rw [raw_cell?, Memory.get?, if_pos (by omega), hnat]
    simp [hk']
  have hword : (m.raw q).cell? (m.raw q).ip = some (m.memory.cells.getD m.ip.toNat 0) := by
    have h := hcell 0 (by omega)
    rwa [Int.natCast_zero, Int.add_zero] at h
  simp only [hin, and_self, if_true]
  generalize m.memory.cells.getD m.ip.toNat 0 = w at hword
  cases hw : Opword.decode w with
  | error e =>
    rw [step?_eq_none hword hw]
    exact ⟨e, rfl⟩
  | ok word =>
    have hlen : (m.raw q).cells.length = m.memory.cells.size := by simp [raw, Memory.toList]
    have harity : word.opcode.length = word.opcode.arity + 1 := rfl
    rw [step?_eq_execute? hword hw, hlen]
    -- the operands that the word asks for are all there, or one is missing
    by_cases hfit : m.ip.toNat + word.opcode.length > m.memory.cells.size
    · have hmiss : (m.memory.cells.size : Int) ≤ (m.raw q).ip + word.opcode.arity := by
        show _ ≤ m.ip + _
        omega
      simp only [bind, Except.bind, hfit, hmiss, if_true]
      exact ⟨_, rfl⟩
    · have hmiss : ¬ (m.memory.cells.size : Int) ≤ (m.raw q).ip + word.opcode.arity := by
        show ¬ _ ≤ m.ip + _
        omega
      simp only [bind, Except.bind, hfit, hmiss, if_false]
      exact matches_execute hq hw (fun _ => hcell 1 (by omega)) (fun _ => hcell 2 (by omega))
        (fun _ => hcell 3 (by omega))

/-- **A step of the machine is the step on raw words.** A machine on a queue that is running below
its limit takes a step exactly when the words allow one, to the same cells, pointer, pending input
and outputs, and counts it; where the words allow none it fails, and is errored then unless the text
of the fault cannot be written. -/
theorem step_raw {m : Machine} {q : Queue} (hq : m.channel = .queue q) (hs : m.status = .running)
    (ht : m.tick < m.tickLimit) :
    ((∃ status, m.step.1 = .ok status) ↔ ∃ s, (m.raw q).step? = some s) ∧
    (∀ s, (m.raw q).step? = some s →
      m.step = (.ok (if s.halted then .halted else .running),
        { m with
          memory := ⟨s.cells.toArray⟩, ip := s.ip,
          channel := .queue ⟨s.pending, s.outputs.toArray⟩, tick := m.tick + 1,
          status := if s.halted then .halted else .running })) ∧
    ((m.raw q).step? = none →
      ∃ e, m.step.1 = .error e ∧ m.step.2.status = if e.writable then .errored else .running) := by
  have hplan := matches_plan hq
  rw [← next_of_lt ht] at hplan
  have hsome : ∀ s, (m.raw q).step? = some s → m.step = (.ok (m.withRaw s).status,
      { m.withRaw s with tick := m.tick + 1 }) := by
    intro s h
    rw [h] at hplan
    exact step_of_ok hs hplan
  have hnone : (m.raw q).step? = none →
      ∃ e, m.step.1 = .error e ∧ m.step.2.status = if e.writable then .errored else .running := by
    intro h
    rw [h] at hplan
    obtain ⟨e, he⟩ := hplan
    have hact : m.act m.next = (.error e, (m.act m.next).2) := by rw [← he]
    have hfails : m.step.1 = .error e := by rw [step_of_error hs hact]
    rcases step_ends hs (by rw [hfails]; simp) with ⟨hok, -⟩ | ⟨e', herror, hstatus, -⟩
    · rw [hfails] at hok
      cases hok
    · exact ⟨e', herror, hstatus⟩
  refine ⟨⟨?_, ?_⟩, ?_, hnone⟩
  · rintro ⟨status, h⟩
    cases hstep : (m.raw q).step? with
    | some s => exact ⟨s, rfl⟩
    | none =>
      obtain ⟨e, he, -⟩ := hnone hstep
      rw [h] at he
      cases he
  · rintro ⟨s, h⟩
    exact ⟨_, by rw [hsome s h]⟩
  · intro s h
    rw [hsome s h]
    simp only [withRaw, hs]

/-- An input that does not fit a word, stored over the very instruction that reads it. -/
theorem step_raw_overwrite :
    let q : Queue := ⟨[4294967301], #[]⟩
    let m : Machine := { memory := ⟨#[3, 0, 99]⟩, channel := .queue q, tickLimit := 1 }
    (m.raw q).step? = some ⟨[5, 0, 99], 2, [], [], false⟩ ∧
      m.step = (.ok .running,
        { m with memory := ⟨#[5, 0, 99]⟩, ip := 2, channel := .queue ⟨[], #[]⟩, tick := 1 }) := by
  intro q m
  have hraw : (m.raw q).step? = some ⟨[5, 0, 99], 2, [], [], false⟩ := by decide
  exact ⟨hraw, (step_raw (m := m) (q := q) rfl rfl (by decide)).2.1 _ hraw⟩

end Machine

end Intcode
