import Intcode.Instruction.Decode

/-!
# What decodes

Decoding in closed form: the conditions under which each stage of it succeeds or
fails, and what it gives then.

* `Mode.decode_eq_ok_iff`, `Mode.decode_eq_error_iff`: a mode is read off its digit.
* `Opword.decode_eq_ok_iff`, `Opword.decode_eq_error_iff`: a word splits if it is not
  negative, all three mode digits are modes and its last two digits are the code of an
  operation.
* `Opword.exists_decode_iff`: which words split, and into which operation.
* `Instruction.assemble_eq_ok_iff`, `Instruction.assemble_eq_error_iff`: an instruction
  is put together from its operation, the modes of its operands and their cells, unless
  its destination is no address.
* `Instruction.decode_eq_ok_iff`, `Instruction.decode_eq_error_iff`: an instruction
  decodes if its word splits, all of its cells are there and they make up an instruction.
* `Instruction.decode_destination`: what decodes has an address for a destination.
* `Instruction.decode_fits`: all cells of what decodes are there.
* `Instruction.decode_local`: no other cells have a say in it.
-/

namespace Intcode

theorem Mode.decode_eq_ok_iff {raw : Int} {slot : Nat} {mode : Mode} :
    Mode.decode raw slot = .ok mode ↔ Mode.digit raw slot = Instruction.modeDigit mode := by
  unfold Mode.decode
  split
  · next h => rw [h]; cases mode <;> simp [Instruction.modeDigit]
  · next h => rw [h]; cases mode <;> simp [Instruction.modeDigit]
  · next h0 h1 =>
    simp only [reduceCtorEq, false_iff]
    cases mode with
    | position => exact h0
    | immediate => exact h1

/-- No mode has a digit above one. -/
theorem Mode.decode_eq_error_iff {raw : Int} {slot : Nat} {e : Fault} :
    Mode.decode raw slot = .error e ↔
      1 < Mode.digit raw slot ∧ e = .unsupportedMode (Mode.digit raw slot) := by
  have hpos : 0 ≤ Mode.digit raw slot := Int.emod_nonneg _ (by decide)
  unfold Mode.decode
  split
  · next h => simp [h]
  · next h => simp [h]
  · next h0 h1 =>
    have hne0 : Mode.digit raw slot ≠ 0 := h0
    have hne1 : Mode.digit raw slot ≠ 1 := h1
    have hlt : 1 < Mode.digit raw slot := by omega
    simp [hlt, eq_comm]

/-- The mode digits of a word, lowest slot first: its hundreds, its thousands and its ten
thousands. -/
def Opword.modeDigits (raw : Int) : List Int := [raw / 100 % 10, raw / 1000 % 10, raw / 10000 % 10]

theorem Opword.modeDigits_eq (raw : Int) :
    modeDigits raw = [Mode.digit raw 0, Mode.digit raw 1, Mode.digit raw 2] := rfl

/-- Is the word not negative, and are all of its mode digits modes? -/
def Opword.Modal (raw : Int) : Prop := 0 ≤ raw ∧ ∀ d ∈ modeDigits raw, d ≤ 1

/-- **A word splits** into an operation and three modes exactly when its digits name them. -/
theorem Opword.decode_eq_ok_iff {raw : Int} {word : Opword} :
    Opword.decode raw = .ok word ↔ 0 ≤ raw ∧ raw % 100 = word.opcode.code ∧
      Mode.digit raw 0 = Instruction.modeDigit word.mode0 ∧
      Mode.digit raw 1 = Instruction.modeDigit word.mode1 ∧
      Mode.digit raw 2 = Instruction.modeDigit word.mode2 := by
  rw [← Opcode.ofCode?_eq_some_iff, ← Mode.decode_eq_ok_iff, ← Mode.decode_eq_ok_iff,
    ← Mode.decode_eq_ok_iff]
  obtain ⟨opcode, mode0, mode1, mode2⟩ := word
  unfold Opword.decode
  by_cases hneg : raw < 0
  · have : ¬ 0 ≤ raw := by omega
    simp [hneg, this]
  have hpos : 0 ≤ raw := by omega
  simp only [hneg, hpos, if_false, true_and]
  cases Mode.decode raw 0 with
  | error e => simp [bind, Except.bind]
  | ok a =>
    cases Mode.decode raw 1 with
    | error e => simp [bind, Except.bind]
    | ok b =>
      cases Mode.decode raw 2 with
      | error e => simp [bind, Except.bind]
      | ok c =>
        cases Opcode.ofCode? (raw % 100) with
        | none => simp [bind, Except.bind]
        | some op => simp [bind, Except.bind]

/-- **A word does not split** if it is negative, else if one of its digits is no mode, else if no
operation has its code. -/
theorem Opword.decode_eq_error_iff {raw : Int} {e : Fault} :
    Opword.decode raw = .error e ↔
      raw < 0 ∧ e = .unsupportedOperation raw ∨
      (0 ≤ raw ∧ ∃ d, (modeDigits raw).find? (1 < ·) = some d ∧ e = .unsupportedMode d) ∨
      Modal raw ∧ (∀ op : Opcode, raw % 100 ≠ op.code) ∧ e = .unsupportedOperation (raw % 100) := by
  unfold Opword.decode Modal
  by_cases hneg : raw < 0
  · have : ¬ 0 ≤ raw := by omega
    simp [hneg, this, eq_comm]
  have hpos : 0 ≤ raw := by omega
  simp only [hneg, hpos, if_false, true_and, false_and, false_or, modeDigits_eq]
  -- a digit that is a mode is passed over in the search for one that is none
  have hmode : ∀ {slot mode}, Mode.decode raw slot = .ok mode → Mode.digit raw slot ≤ 1 := by
    intro slot mode h
    rw [Mode.decode_eq_ok_iff.1 h]
    cases mode <;> decide
  cases h0 : Mode.decode raw 0 with
  | error e0 =>
    obtain ⟨hlt, rfl⟩ := Mode.decode_eq_error_iff.1 h0
    simp [bind, Except.bind, hlt, Int.not_le.2 hlt, eq_comm]
  | ok mode0 =>
    have hle0 := hmode h0
    cases h1 : Mode.decode raw 1 with
    | error e1 =>
      obtain ⟨hlt, rfl⟩ := Mode.decode_eq_error_iff.1 h1
      simp [bind, Except.bind, hlt, Int.not_le.2 hlt, Int.not_lt.2 hle0, eq_comm]
    | ok mode1 =>
      have hle1 := hmode h1
      cases h2 : Mode.decode raw 2 with
      | error e2 =>
        obtain ⟨hlt, rfl⟩ := Mode.decode_eq_error_iff.1 h2
        simp [bind, Except.bind, hlt, Int.not_le.2 hlt, Int.not_lt.2 hle0,
          Int.not_lt.2 hle1, eq_comm]
      | ok mode2 =>
        have hle2 := hmode h2
        cases hop : Opcode.ofCode? (raw % 100) with
        | some op =>
          have hcode : ¬ ∀ op : Opcode, raw % 100 ≠ op.code :=
            fun h => h op (Opcode.ofCode?_eq_some_iff.1 hop)
          simp [bind, Except.bind, Int.not_lt.2 hle0, Int.not_lt.2 hle1, Int.not_lt.2 hle2, hcode]
        | none =>
          have hnot : ∀ op : Opcode, raw % 100 ≠ op.code := by
            intro op hcode
            rw [Opcode.ofCode?_eq_some_iff.2 hcode] at hop
            cases hop
          simp [bind, Except.bind, hle0, hle1, hle2, Int.not_lt.2 hle0, Int.not_lt.2 hle1,
            Int.not_lt.2 hle2, hnot, eq_comm]

/-- The three modes of a word, lowest slot first. -/
def Opword.modes (word : Opword) : List Mode := [word.mode0, word.mode1, word.mode2]

theorem Mode.digit_le_one_iff {d : Int} (h : 0 ≤ d) :
    d ≤ 1 ↔ ∃ mode, d = Instruction.modeDigit mode := by
  constructor
  · intro hle
    obtain rfl | rfl : d = 0 ∨ d = 1 := by omega
    · exact ⟨.position, rfl⟩
    · exact ⟨.immediate, rfl⟩
  · rintro ⟨mode, rfl⟩
    cases mode <;> decide

/-- A word that splits has the digits of its modes. -/
theorem Opword.modeDigits_of_decode {raw : Int} {word : Opword} (h : decode raw = .ok word) :
    modeDigits raw = word.modes.map Instruction.modeDigit := by
  obtain ⟨-, -, h0, h1, h2⟩ := decode_eq_ok_iff.1 h
  rw [modeDigits_eq, h0, h1, h2]
  rfl

/-- **The words that split** into an operation and modes. -/
theorem Opword.exists_decode_iff {raw : Int} {op : Opcode} :
    (∃ word, decode raw = .ok word ∧ word.opcode = op) ↔ Modal raw ∧ raw % 100 = op.code := by
  have hpos : ∀ slot, 0 ≤ Mode.digit raw slot := fun slot => Int.emod_nonneg _ (by decide)
  constructor
  · rintro ⟨word, hword, rfl⟩
    obtain ⟨h0, hcode, -⟩ := decode_eq_ok_iff.1 hword
    refine ⟨⟨h0, ?_⟩, hcode⟩
    rw [modeDigits_of_decode hword, List.forall_mem_map]
    exact fun mode _ => by cases mode <;> decide
  · rintro ⟨⟨h0, hmodal⟩, hcode⟩
    simp only [modeDigits_eq, List.forall_mem_cons, Mode.digit_le_one_iff (hpos _)] at hmodal
    obtain ⟨⟨mode0, hd0⟩, ⟨mode1, hd1⟩, ⟨mode2, hd2⟩, -⟩ := hmodal
    exact ⟨⟨op, mode0, mode1, mode2⟩, decode_eq_ok_iff.2 ⟨h0, hcode, hd0, hd1, hd2⟩, rfl⟩

/-- **An instruction decodes** exactly when its word splits, its cells are all there and they make up
an instruction. -/
theorem Instruction.decode_eq_ok_iff {cells : Array Int} {offset : Int} {i : Instruction} :
    decode cells offset = .ok i ↔ 0 ≤ offset ∧ ∃ word,
      Opword.decode (cells.getD offset.toNat 0) = .ok word ∧
      offset + word.opcode.length ≤ cells.size ∧
      assemble word (cells.getD (offset.toNat + 1) 0) (cells.getD (offset.toNat + 2) 0)
        (cells.getD (offset.toNat + 3) 0) = .ok i := by
  unfold decode
  by_cases h : 0 ≤ offset ∧ offset < cells.size
  · simp only [h, and_self, if_true, true_and]
    cases Opword.decode (cells.getD offset.toNat 0) with
    | error e => simp [bind, Except.bind]
    | ok word =>
      by_cases hfit : offset.toNat + word.opcode.length > cells.size
      · have : ¬ offset + word.opcode.length ≤ cells.size := by omega
        simp [bind, Except.bind, hfit, this]
      · have : offset + word.opcode.length ≤ cells.size := by omega
        simp [bind, Except.bind, hfit, this]
  · -- an instruction that fits takes up its own cell at least
    simp only [h, if_false, reduceCtorEq, false_iff]
    rintro ⟨h0, word, -, hfit, -⟩
    have : word.opcode.length = word.opcode.arity + 1 := rfl
    omega

theorem Operand.mode_eq_position_iff {o : Operand} :
    o.mode = .position ↔ ∃ index, o = .address index := by
  cases o <;> simp [mode]

/-- A destination is what its cell stands for, which has to be an address. -/
theorem Operand.destination_eq (cell : Int) (mode : Mode) : Operand.destination cell mode =
    if mode = .position then .ok (.ofCell cell mode) else .error .immediateDestination := by
  cases mode <;> rfl

/-- The slot of the operand that the operation stores through, if it does. -/
def Opcode.destinationSlot? : Opcode → Option Nat
  | add | multiply | lessThan | equals => some 2
  | input => some 0
  | output | jumpIfTrue | jumpIfFalse | halt => none

namespace Instruction

/-- The destination, if there is one, is an address. -/
def Storable (i : Instruction) : Prop :=
  ∀ d, i.destination? = some d → ∃ index, d = .address index

/-- **An instruction is put together** from its operation, the modes of its operands and their cells.
What a word has in other slots, and the cells behind the operands, have no say. -/
theorem assemble_eq_ok_iff {word : Opword} {a b c : Int} {i : Instruction} :
    assemble word a b c = .ok i ↔ word.opcode = i.opcode ∧ i.Storable ∧
      i.operands.map Operand.mode <+: word.modes ∧ i.operands.map Operand.cell <+: [a, b, c] := by
  constructor
  · -- whatever is made from a destination has an address for it
    have key : ∀ {cell : Int} {mode : Mode} {f : Operand → Instruction},
        (∀ o, (f o).destination? = some o) → (Operand.destination cell mode).map f = .ok i →
        i = f (.ofCell cell mode) ∧ i.Storable := by
      intro cell mode f hf h
      cases mode with
      | immediate => cases h
      | position =>
        cases h
        refine ⟨rfl, fun d hd => ⟨cell, ?_⟩⟩
        rw [hf, Option.some.injEq] at hd
        exact hd.symm
    intro h
    unfold assemble at h
    cases hop : word.opcode <;> simp only [hop, decodeBinary] at h
    case add | multiply | lessThan | equals | input =>
      obtain ⟨hi, hstore⟩ := key (fun _ => rfl) h
      exact ⟨by rw [hi]; rfl, hstore, by simp [hi, operands, Opword.modes], by simp [hi, operands]⟩
    case output | jumpIfTrue | jumpIfFalse | halt =>
      cases h
      exact ⟨rfl, (by intro d hd; cases hd), by simp [operands, Opword.modes], by simp [operands]⟩
  · rintro ⟨hop, hstore, hmodes, hcells⟩
    obtain ⟨opcode, mode0, mode1, mode2⟩ := word
    simp only at hop
    subst hop
    cases i with
    | binary op left right dest =>
      have hdest := Operand.mode_eq_position_iff.2 (hstore dest rfl)
      simp only [operands, Opword.modes, List.map_cons, List.cons_prefix_cons] at hmodes hcells
      obtain ⟨rfl, rfl, rfl, -⟩ := hmodes
      obtain ⟨rfl, rfl, rfl, -⟩ := hcells
      cases op <;>
        simp [assemble, decodeBinary, Instruction.opcode, BinaryOp.opcode, Operand.destination_eq,
          if_pos hdest, Except.map]
    | input dest =>
      have hdest := Operand.mode_eq_position_iff.2 (hstore dest rfl)
      simp only [operands, Opword.modes, List.map_cons, List.cons_prefix_cons] at hmodes hcells
      obtain ⟨rfl, -⟩ := hmodes
      obtain ⟨rfl, -⟩ := hcells
      simp [assemble, Instruction.opcode, Operand.destination_eq, if_pos hdest, Except.map]
    | output source =>
      simp only [operands, Opword.modes, List.map_cons, List.cons_prefix_cons] at hmodes hcells
      obtain ⟨rfl, -⟩ := hmodes
      obtain ⟨rfl, -⟩ := hcells
      simp [assemble, Instruction.opcode]
    | jump sense condition target =>
      simp only [operands, Opword.modes, List.map_cons, List.cons_prefix_cons] at hmodes hcells
      obtain ⟨rfl, rfl, -⟩ := hmodes
      obtain ⟨rfl, rfl, -⟩ := hcells
      cases sense <;> simp [assemble, Instruction.opcode]
    | halt => rfl

/-- Nothing is put together from a destination in immediate mode. -/
theorem assemble_eq_error_iff {word : Opword} {a b c : Int} {e : Fault} :
    assemble word a b c = .error e ↔ e = .immediateDestination ∧
      ∃ slot, word.opcode.destinationSlot? = some slot ∧ word.modes[slot]? = some .immediate := by
  have key : ∀ {cell : Int} {mode : Mode} {f : Operand → Instruction},
      (Operand.destination cell mode).map f = .error e ↔
        e = .immediateDestination ∧ mode = .immediate := by
    intro cell mode f
    cases mode <;> simp [Operand.destination, Except.map, eq_comm]
  unfold assemble
  cases word.opcode <;> simp [decodeBinary, key, Opcode.destinationSlot?, Opword.modes]

theorem assemble_opcode {word : Opword} {a b c : Int} {i : Instruction}
    (h : assemble word a b c = .ok i) : i.opcode = word.opcode := (assemble_eq_ok_iff.1 h).1.symm

/-- **How decoding fails**: the offset is outside, else its word does not split, else cells are
missing, else they make up no instruction. -/
theorem decode_eq_error_iff {cells : Array Int} {offset : Int} {e : Fault} :
    decode cells offset = .error e ↔
      ¬ (0 ≤ offset ∧ offset < cells.size) ∧ e = .pointerOutside offset cells.size ∨
      (0 ≤ offset ∧ offset < cells.size) ∧
        (Opword.decode (cells.getD offset.toNat 0) = .error e ∨
          ∃ word, Opword.decode (cells.getD offset.toNat 0) = .ok word ∧
            (cells.size < offset + word.opcode.length ∧
                e = .truncated word.opcode offset (cells.size - offset) ∨
              offset + word.opcode.length ≤ cells.size ∧
                assemble word (cells.getD (offset.toNat + 1) 0) (cells.getD (offset.toNat + 2) 0)
                  (cells.getD (offset.toNat + 3) 0) = .error e)) := by
  unfold decode
  by_cases h : 0 ≤ offset ∧ offset < cells.size
  · simp only [h, and_self, if_true, true_and, not_true_eq_false, false_and, false_or]
    cases Opword.decode (cells.getD offset.toNat 0) with
    | error e => simp [bind, Except.bind]
    | ok word =>
      by_cases hfit : offset.toNat + word.opcode.length > cells.size
      · have hlt : cells.size < offset + word.opcode.length := by omega
        simp [bind, Except.bind, hfit, hlt, Int.not_le.2 hlt, eq_comm]
      · have hle : offset + word.opcode.length ≤ cells.size := by omega
        simp [bind, Except.bind, hfit, hle, Int.not_lt.2 hle]
  · simp [h, eq_comm]

end Instruction

/-- **The destination of an instruction that decodes is an address.** -/
theorem Instruction.decode_destination {cells : Array Int} {offset : Int} {i : Instruction}
    (h : decode cells offset = .ok i) {d : Operand} (hd : i.destination? = some d) :
    ∃ index, d = .address index := by
  obtain ⟨-, word, -, -, hasm⟩ := decode_eq_ok_iff.1 h
  exact (assemble_eq_ok_iff.1 hasm).2.1 d hd

/-- **All cells of an instruction that decodes are there.** -/
theorem Instruction.decode_fits {cells : Array Int} {offset : Int} {i : Instruction}
    (h : decode cells offset = .ok i) : 0 ≤ offset ∧ offset + i.length ≤ cells.size := by
  obtain ⟨h0, word, -, hfit, hasm⟩ := decode_eq_ok_iff.1 h
  rw [length, assemble_opcode hasm]
  exact ⟨h0, hfit⟩

/-- Only the cells that the operation takes for operands matter. -/
theorem Instruction.assemble_congr {word : Opword} {a b c a' b' c' : Int}
    (ha : 1 ≤ word.opcode.arity → a' = a) (hb : 2 ≤ word.opcode.arity → b' = b)
    (hc : 3 ≤ word.opcode.arity → c' = c) : assemble word a' b' c' = assemble word a b c := by
  unfold assemble decodeBinary
  cases hop : word.opcode <;> rw [hop] at ha hb hc
  case add | multiply | lessThan | equals =>
    rw [ha (by decide), hb (by decide), hc (by decide)]
  case jumpIfTrue | jumpIfFalse => rw [ha (by decide), hb (by decide)]
  case input | output => rw [ha (by decide)]

/-- **Decoding is local**: cells that agree on an instruction decode to it. -/
theorem Instruction.decode_local {cells cells' : Array Int} {offset : Int} {i : Instruction}
    (h : decode cells offset = .ok i)
    (hcells : ∀ k < i.length, cells'[offset.toNat + k]? = cells[offset.toNat + k]?) :
    decode cells' offset = .ok i := by
  obtain ⟨h0, word, hword, hfit, hasm⟩ := decode_eq_ok_iff.1 h
  have hlen : i.length = word.opcode.arity + 1 := by rw [length, assemble_opcode hasm]; rfl
  have harity : word.opcode.length = word.opcode.arity + 1 := rfl
  have hget : ∀ k ≤ word.opcode.arity,
      cells'.getD (offset.toNat + k) 0 = cells.getD (offset.toNat + k) 0 := by
    intro k hk
    rw [Array.getD_eq_getD_getElem?, Array.getD_eq_getD_getElem?, hcells k (by omega)]
  -- the last cell of the instruction is there, so those before it are
  have hlast : offset.toNat + word.opcode.arity < cells'.size := by
    have hin : offset.toNat + word.opcode.arity < cells.size := by omega
    have hsome := hcells word.opcode.arity (by omega)
    rw [Array.getElem?_eq_getElem hin] at hsome
    exact (Array.getElem?_eq_some_iff.1 hsome).1
  refine decode_eq_ok_iff.2 ⟨h0, word, ?_, by omega, ?_⟩
  · have hfirst := hget 0 (Nat.zero_le _)
    rw [Nat.add_zero] at hfirst
    rw [hfirst]
    exact hword
  · rw [assemble_congr (fun h => hget 1 h) (fun h => hget 2 h) (fun h => hget 3 h)]
    exact hasm

end Intcode
