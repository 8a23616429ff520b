import Intcode.Proofs.Decoding

/-!
# What does not decode

Why decoding fails, read off the digits of the word at the offset. Several reasons may
hold of one word; the first of them in a fixed order is the one that is reported. It is
reported as long as its text can be written: an offset outside that is too long, or a
negative word that is, is not.

* `Instruction.decode_eq_error_iff_digits`: the reasons, each behind those before it.
* `Instruction.decodeFrom_congr`: what a look outside would find has no say.
* `Instruction.decode_unwritten_iff`: when a reason is not reported.
* `Instruction.decode_reasons`: when each reason is reported, and when there is none.
* `Instruction.decode_unreported`: an offset and a word that are too long.
-/

namespace Intcode

namespace Instruction

variable {cells : Array Int} {offset raw : Int} {e : Fault}

/-- The word has a mode digit of one in the slot of the destination of an operation. -/
def Misdirected (op : Opcode) (raw : Int) : Prop :=
  ∃ slot, op.destinationSlot? = some slot ∧ (Opword.modeDigits raw)[slot]? = some 1

theorem misdirected_iff {word : Opword} (h : Opword.decode raw = .ok word) :
    Misdirected word.opcode raw ↔
      ∃ slot, word.opcode.destinationSlot? = some slot ∧ word.modes[slot]? = some .immediate := by
  have hone : ∀ mode, modeDigit mode = 1 ↔ mode = .immediate := by
    intro mode
    cases mode <;> decide
  simp only [Misdirected, Opword.modeDigits_of_decode h, List.getElem?_map, Option.map_eq_some_iff,
    hone, exists_eq_right]

/-- **The reasons for which decoding fails** at a word, each behind those before it: the word is
negative, one of its digits is no mode, no operation has its code, cells are missing, the destination
is in immediate mode. -/
theorem decode_eq_error_iff_digits (h0 : 0 ≤ offset) (hraw : cells[offset.toNat]? = some raw) :
    decode cells offset = .error e ↔
      raw < 0 ∧ e = .unsupportedOperation raw ∨
      (0 ≤ raw ∧ ∃ d, (Opword.modeDigits raw).find? (1 < ·) = some d ∧ e = .unsupportedMode d) ∨
      Opword.Modal raw ∧
        ((∀ op : Opcode, raw % 100 ≠ op.code) ∧ e = .unsupportedOperation (raw % 100) ∨
          ∃ op : Opcode, raw % 100 = op.code ∧
            (cells.size < offset + op.length ∧ e = .truncated op offset (cells.size - offset) ∨
              offset + op.length ≤ cells.size ∧ e = .immediateDestination ∧ Misdirected op raw)) := by
  have hin : 0 ≤ offset ∧ offset < cells.size := by
    obtain ⟨hlt, -⟩ := Array.getElem?_eq_some_iff.1 hraw
    omega
  have hget : cells.getD offset.toNat 0 = raw := by
    rw [Array.getD_eq_getD_getElem?, hraw, Option.getD_some]
  -- what comes after the word has split, said of its digits
  have hsplit : (∃ word, Opword.decode raw = .ok word ∧
        (cells.size < offset + word.opcode.length ∧
            e = .truncated word.opcode offset (cells.size - offset) ∨
          offset + word.opcode.length ≤ cells.size ∧
            assemble word (cells.getD (offset.toNat + 1) 0) (cells.getD (offset.toNat + 2) 0)
              (cells.getD (offset.toNat + 3) 0) = .error e)) ↔
      ∃ op : Opcode, (Opword.Modal raw ∧ raw % 100 = op.code) ∧
        (cells.size < offset + op.length ∧ e = .truncated op offset (cells.size - offset) ∨
          offset + op.length ≤ cells.size ∧ e = .immediateDestination ∧ Misdirected op raw) := by
    simp only [← Opword.exists_decode_iff]
    constructor
    · rintro ⟨word, hword, hrest⟩
      rw [assemble_eq_error_iff, ← misdirected_iff hword] at hrest
      exact ⟨word.opcode, ⟨word, hword, rfl⟩, hrest⟩
    · rintro ⟨op, ⟨word, hword, rfl⟩, hrest⟩
      refine ⟨word, hword, ?_⟩
      rw [assemble_eq_error_iff, ← misdirected_iff hword]
      exact hrest
  rw [decode_eq_error_iff, hget, Opword.decode_eq_error_iff, hsplit]
  simp only [hin, and_self, not_true_eq_false, false_and, true_and, false_or, and_assoc,
    exists_and_left]
  rw [and_or_left, or_assoc, or_assoc]

/-- **A word and its cells make up an instruction** if its digits name an operation and modes, the
cells are all there and the destination is not in immediate mode. -/
theorem exists_decode_iff_digits (h0 : 0 ≤ offset) (hraw : cells[offset.toNat]? = some raw) :
    (∃ i, decode cells offset = .ok i) ↔ Opword.Modal raw ∧ ∃ op : Opcode, raw % 100 = op.code ∧
      offset + op.length ≤ cells.size ∧ ¬ Misdirected op raw := by
  have hget : cells.getD offset.toNat 0 = raw := by
    rw [Array.getD_eq_getD_getElem?, hraw, Option.getD_some]
  simp only [decode_eq_ok_iff, hget]
  constructor
  · rintro ⟨i, -, word, hword, hfit, hasm⟩
    obtain ⟨hmodal, hcode⟩ := Opword.exists_decode_iff.1 ⟨word, hword, rfl⟩
    refine ⟨hmodal, word.opcode, hcode, hfit, fun hmis => ?_⟩
    rw [assemble_eq_error_iff.2 ⟨rfl, (misdirected_iff hword).1 hmis⟩] at hasm
    cases hasm
  · rintro ⟨hmodal, op, hcode, hfit, hnot⟩
    obtain ⟨word, hword, rfl⟩ := Opword.exists_decode_iff.2 ⟨hmodal, hcode⟩
    cases hasm : assemble word (cells.getD (offset.toNat + 1) 0) (cells.getD (offset.toNat + 2) 0)
        (cells.getD (offset.toNat + 3) 0) with
    | ok i => exact ⟨i, h0, word, hword, hfit, hasm⟩
    | error e => exact absurd ((misdirected_iff hword).2 (assemble_eq_error_iff.1 hasm).2) hnot

/-- Decoding with cells that are looked for by `read`, in a memory of `size` cells. -/
def decodeFrom (read : Nat → Int) (size : Nat) (offset : Int) : Except Fault Instruction :=
  if 0 ≤ offset ∧ offset < size then do
    let start := offset.toNat
    let word ← Opword.decode (read start)
    if start + word.opcode.length > size then
      .error (.truncated word.opcode offset (size - offset))
    else
      assemble word (read (start + 1)) (read (start + 2)) (read (start + 3))
  else .error (.pointerOutside offset size)

theorem decode_eq_decodeFrom (cells : Array Int) (offset : Int) :
    decode cells offset = decodeFrom (cells.getD · 0) cells.size offset := rfl

/-- **What a look outside would find has no say.** -/
theorem decodeFrom_congr {read read' : Nat → Int} {size : Nat} (h : ∀ n < size, read' n = read n) :
    decodeFrom read' size offset = decodeFrom read size offset := by
  unfold decodeFrom
  by_cases hin : 0 ≤ offset ∧ offset < size
  · simp only [hin, and_self, if_true]
    rw [h _ (by omega)]
    cases hword : Opword.decode (read offset.toNat) with
    | error e => rfl
    | ok word =>
      have hlen : word.opcode.length = word.opcode.arity + 1 := rfl
      by_cases hfit : offset.toNat + word.opcode.length > size
      · simp only [bind, Except.bind, hfit, if_true]
      · simp only [bind, Except.bind, hfit, if_false]
        exact assemble_congr (fun _ => h _ (by omega)) (fun _ => h _ (by omega))
          (fun _ => h _ (by omega))
  · simp only [hin, if_false]

/-- Does decoding fail at an offset or at a word that is too long to be written? -/
def Unreported (cells : Array Int) (offset : Int) : Prop :=
  ¬ (0 ≤ offset ∧ offset < cells.size) ∧ Numeral.writable offset = false ∨
    0 ≤ offset ∧ ∃ raw, cells[offset.toNat]? = some raw ∧ raw < 0 ∧ Numeral.writable raw = false

/-- What an offset outside is reported as. -/
theorem kind_pointerOutside (offset : Int) (size : Nat) : (Fault.pointerOutside offset size).kind =
    if Numeral.writable offset then .bounds else .unwritten := by
  simp [Fault.kind, Fault.writable, Fault.numbers, Numeral.allWritable, Fault.family]

/-- What a code that no operation has is reported as. -/
theorem kind_unsupportedOperation (code : Int) : (Fault.unsupportedOperation code).kind =
    if Numeral.writable code then .decode else .unwritten := by
  simp [Fault.kind, Fault.writable, Fault.numbers, Numeral.allWritable, Fault.family]

/-- The code of an operation is two digits long. -/
theorem writable_mod (raw : Int) : Numeral.writable (raw % 100) = true := by
  apply Word.writable_of_inRange
  simp only [Word.InRange, Word.least, Word.greatest]
  omega

/-- **When a reason is not reported**: the offset is outside and too long, or the word is negative and
too long. -/
theorem decode_unwritten_iff :
    (∃ e, decode cells offset = .error e ∧ e.kind = .unwritten) ↔ Unreported cells offset := by
  by_cases hin : 0 ≤ offset ∧ offset < cells.size
  · have hlt : offset.toNat < cells.size := by omega
    have hraw := Array.getElem?_eq_getElem hlt
    simp only [Unreported, hin, and_self, not_true_eq_false, false_and, false_or, true_and]
    constructor
    · rintro ⟨e, he, hkind⟩
      rcases (decode_eq_error_iff_digits hin.1 hraw).1 he with
        ⟨hneg, rfl⟩ | ⟨-, d, -, rfl⟩ | ⟨-, ⟨-, rfl⟩ | ⟨op, -, ⟨-, rfl⟩ | ⟨-, rfl, -⟩⟩⟩
      · rw [kind_unsupportedOperation] at hkind
        split at hkind
        · cases hkind
        · next hw => exact ⟨_, hraw, hneg, Bool.not_eq_true _ ▸ hw⟩
      · cases hkind
      · rw [kind_unsupportedOperation, if_pos (writable_mod _)] at hkind
        cases hkind
      · cases hkind
      · cases hkind
    · rintro ⟨raw, hraw, hneg, hw⟩
      refine ⟨_, (decode_eq_error_iff_digits hin.1 hraw).2 (.inl ⟨hneg, rfl⟩), ?_⟩
      rw [kind_unsupportedOperation, hw]
      rfl
  · have hdecode : decode cells offset = .error (.pointerOutside offset cells.size) :=
      decode_eq_error_iff.2 (.inl ⟨hin, rfl⟩)
    have hnone : ¬ (0 ≤ offset ∧ ∃ raw, cells[offset.toNat]? = some raw ∧ raw < 0 ∧
        Numeral.writable raw = false) := by
      rintro ⟨h0, raw, hraw, -⟩
      obtain ⟨hlt, -⟩ := Array.getElem?_eq_some_iff.1 hraw
      omega
    simp only [Unreported, hin, hnone, not_false_eq_true, true_and, or_false, hdecode,
      Except.error.injEq, exists_eq_left', kind_pointerOutside]
    cases Numeral.writable offset <;> simp

/-- **Why decoding fails.** The offset is outside; or else the word there is negative; or else the
lowest of its mode digits that is above one is no mode, whatever the operation; or else no operation
has its code; or else cells are missing, whatever the mode of the destination; or else the destination
is in immediate mode. If none of this holds there is an instruction. The reason is reported with its
text, unless the offset outside or the negative word cannot be written. Nothing outside of the cells
has a say. -/
theorem decode_reasons (cells : Array Int) (offset : Int) :
    ((∃ e, decode cells offset = .error e ∧ e.kind = .bounds) ↔
      ¬ (0 ≤ offset ∧ offset < cells.size) ∧ Numeral.writable offset = true) ∧
    ((∃ e, decode cells offset = .error e ∧ e.kind = .unwritten) ↔ Unreported cells offset) ∧
    (∀ raw, 0 ≤ offset → cells[offset.toNat]? = some raw →
      (∀ code, decode cells offset = .error (.unsupportedOperation code) ↔
        raw < 0 ∧ code = raw ∨
        Opword.Modal raw ∧ (∀ op : Opcode, raw % 100 ≠ op.code) ∧ code = raw % 100) ∧
      (∀ digit, decode cells offset = .error (.unsupportedMode digit) ↔
        0 ≤ raw ∧ (Opword.modeDigits raw).find? (1 < ·) = some digit) ∧
      (∀ op start left, decode cells offset = .error (.truncated op start left) ↔
        Opword.Modal raw ∧ raw % 100 = op.code ∧ cells.size < offset + op.length ∧
          start = offset ∧ left = cells.size - offset) ∧
      ((∃ e, decode cells offset = .error e ∧ e.kind = .addressing) ↔
        Opword.Modal raw ∧ ∃ op : Opcode, raw % 100 = op.code ∧ offset + op.length ≤ cells.size ∧
          Misdirected op raw) ∧
      ((∃ i, decode cells offset = .ok i) ↔
        Opword.Modal raw ∧ ∃ op : Opcode, raw % 100 = op.code ∧ offset + op.length ≤ cells.size ∧
          ¬ Misdirected op raw)) ∧
    (∀ code, Numeral.writable code = true → (Fault.unsupportedOperation code).kind = .decode ∧
      (Fault.unsupportedOperation code).message = "unsupported operation: " ++ toString code) ∧
    (∀ digit, (Fault.unsupportedMode digit).kind = .decode ∧
      (Fault.unsupportedMode digit).message = "unsupported parameter mode: " ++ toString digit) ∧
    (∀ op start left, (Fault.truncated op start left).kind = .decode ∧
      (Fault.truncated op start left).message = "instruction truncated: " ++ op.name ++ " at " ++
        toString start ++ " needs " ++ toString op.length ++ " cells, " ++ toString left ++
        " left") ∧
    ∀ read : Nat → Int, (∀ n < cells.size, read n = cells.getD n 0) →
      decodeFrom read cells.size offset = decode cells offset := by
  refine ⟨?_, decode_unwritten_iff, ?_, ?_, fun _ => ⟨rfl, rfl⟩, fun _ _ _ => ⟨rfl, rfl⟩, ?_⟩
  · by_cases hin : 0 ≤ offset ∧ offset < cells.size
    · have hlt : offset.toNat < cells.size := by omega
      have hraw := Array.getElem?_eq_getElem hlt
      simp only [hin, and_self, not_true_eq_false, false_and, iff_false]
      rintro ⟨e, he, hkind⟩
      rw [Fault.kind_eq_iff (by simp)] at hkind
      rcases (decode_eq_error_iff_digits hin.1 hraw).1 he with
        ⟨-, rfl⟩ | ⟨-, d, -, rfl⟩ | ⟨-, ⟨-, rfl⟩ | ⟨op, -, ⟨-, rfl⟩ | ⟨-, rfl, -⟩⟩⟩ <;>
        cases hkind.1
    · have hdecode : decode cells offset = .error (.pointerOutside offset cells.size) :=
        decode_eq_error_iff.2 (.inl ⟨hin, rfl⟩)
      simp only [hin, not_false_eq_true, true_and, hdecode, Except.error.injEq, exists_eq_left',
        kind_pointerOutside]
      cases Numeral.writable offset <;> simp
  · intro raw h0 hraw
    refine ⟨?_, ?_, ?_, ?_, exists_decode_iff_digits h0 hraw⟩
    · intro code
      simp [decode_eq_error_iff_digits h0 hraw]
    · intro digit
      simp [decode_eq_error_iff_digits h0 hraw]
    · intro op start left
      simp only [decode_eq_error_iff_digits h0 hraw, reduceCtorEq, and_false, exists_false, false_and,
        false_or, or_false, Fault.truncated.injEq]
      constructor
      · rintro ⟨hmodal, _, hcode, hcut, rfl, hstart, hleft⟩
        exact ⟨hmodal, hcode, hcut, hstart, hleft⟩
      · rintro ⟨hmodal, hcode, hcut, hstart, hleft⟩
        exact ⟨hmodal, op, hcode, hcut, rfl, hstart, hleft⟩
    · constructor
      · rintro ⟨e, he, hkind⟩
        rw [Fault.kind_eq_iff (by simp)] at hkind
        rcases (decode_eq_error_iff_digits h0 hraw).1 he with
          ⟨-, rfl⟩ | ⟨-, d, -, rfl⟩ | ⟨hmodal, ⟨-, rfl⟩ | ⟨op, hcode, ⟨-, rfl⟩ | ⟨hfit, rfl, hmis⟩⟩⟩
        case inr.inr.inr.inr => exact ⟨hmodal, op, hcode, hfit, hmis⟩
        all_goals cases hkind.1
      · rintro ⟨hmodal, op, hcode, hfit, hmis⟩
        refine ⟨.immediateDestination, (decode_eq_error_iff_digits h0 hraw).2 ?_, rfl⟩
        exact .inr (.inr ⟨hmodal, .inr ⟨op, hcode, .inr ⟨hfit, rfl, hmis⟩⟩⟩)
  · intro code hcode
    have hwritable : (Fault.unsupportedOperation code).writable = true := by
      simp [Fault.writable, Fault.numbers, Numeral.allWritable, hcode]
    refine ⟨Fault.kind_of_writable hwritable, ?_⟩
    rw [Fault.message, if_pos hwritable]
    rfl
  · intro read hread
    rw [decode_eq_decodeFrom]
    exact decodeFrom_congr hread

/-- An addition whose last cell is missing, with its destination in immediate mode: what is reported
is that it is cut short. -/
theorem decode_reasons_cut_short :
    let cells := #[99, 11101, 0, 0]
    cells[1]? = some 11101 ∧ Misdirected .add 11101 ∧
      decode cells 1 = .error (.truncated .add 1 3) := by
  intro cells
  have hword : cells[1]? = some 11101 := rfl
  obtain ⟨-, -, hdigits, -⟩ := decode_reasons cells 1
  obtain ⟨-, -, hcut, -⟩ := hdigits 11101 (by decide) hword
  have hmodal : Opword.Modal 11101 := ⟨by decide, by decide⟩
  exact ⟨hword, ⟨2, rfl, rfl⟩, (hcut .add 1 3).2 ⟨hmodal, rfl, by decide, rfl, rfl⟩⟩

/-- **An offset outside and a negative word that are not reported as such**: each has one digit more
than can be written. -/
theorem decode_unreported :
    let long : Int := (Nat.pow 10 Numeral.maxDigits : Nat)
    (¬ (0 ≤ long ∧ long < (#[99] : Array Int).size) ∧
        ¬ ∃ e, decode #[99] long = .error e ∧ e.kind = .bounds) ∧
      -long < 0 ∧ ¬ ∃ e, decode #[-long] 0 = .error e ∧ e.kind = .decode := by
  intro long
  have hlong : Numeral.writable long = false := Numeral.writable_pow
  have hnonneg : 0 ≤ long := Int.natCast_nonneg _
  have hne : long ≠ 0 := by
    intro h
    rw [h] at hlong
    exact absurd hlong (by decide)
  clear_value long
  have hsize : ¬ (0 ≤ long ∧ long < (#[99] : Array Int).size) := by
    simp
    omega
  refine ⟨⟨hsize, ?_⟩, by omega, ?_⟩
  · rintro ⟨e, he, hkind⟩
    rw [decode_eq_error_iff.2 (.inl ⟨hsize, rfl⟩)] at he
    cases he
    rw [kind_pointerOutside, hlong] at hkind
    cases hkind
  · rintro ⟨e, he, hkind⟩
    have hraw : (#[-long] : Array Int)[(0 : Int).toNat]? = some (-long) := rfl
    rw [(decode_eq_error_iff_digits (Int.le_refl 0) hraw).2 (.inl ⟨by omega, rfl⟩)] at he
    cases he
    rw [kind_unsupportedOperation, Numeral.writable_neg, hlong] at hkind
    cases hkind

end Instruction

end Intcode
