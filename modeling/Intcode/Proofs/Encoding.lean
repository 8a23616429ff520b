import Intcode.Proofs.Decoding

/-!
# Instructions as cells

`Instruction.cells` writes an instruction down. Decoding reads it back wherever it
stands among other cells, and reads nothing else: what decodes is written so, but for
digits of its word that mean nothing.

* `Opword.decode_eq_ok_iff_digits`: a word splits into the parts that its digits spell.
* `Instruction.speltBy_iff`: which words say the same as that of an instruction.
* `Instruction.decode_eq_ok_iff_spelt`: an instruction decodes where cells spell it.
* `Instruction.decode_cells`: decoding undoes writing down, and accepts nothing else.
-/

namespace Intcode

theorem Opcode.code_lt (op : Opcode) : op.code < 100 := by
  cases op <;> decide

theorem Opcode.arity_le (op : Opcode) : op.arity ≤ 3 := by
  cases op <;> decide

theorem Instruction.modeDigit_cases (mode : Mode) : modeDigit mode = 0 ∨ modeDigit mode = 1 := by
  cases mode
  · exact .inl rfl
  · exact .inr rfl

/-- **A word splits into the parts that its digits spell.** Digits above the modes may be any. -/
theorem Opword.decode_eq_ok_iff_digits {raw : Int} {word : Opword} :
    Opword.decode raw = .ok word ↔ ∃ high : Nat, raw = word.opcode.code +
      100 * Instruction.modeDigit word.mode0 + 1000 * Instruction.modeDigit word.mode1 +
      10000 * Instruction.modeDigit word.mode2 + 100000 * high := by
  have h0 : Mode.digit raw 0 = raw / 100 % 10 := rfl
  have h1 : Mode.digit raw 1 = raw / 1000 % 10 := rfl
  have h2 : Mode.digit raw 2 = raw / 10000 % 10 := rfl
  have hcode := word.opcode.code_lt
  have hm0 := Instruction.modeDigit_cases word.mode0
  have hm1 := Instruction.modeDigit_cases word.mode1
  have hm2 := Instruction.modeDigit_cases word.mode2
  rw [decode_eq_ok_iff, h0, h1, h2]
  constructor
  · rintro ⟨hpos, hop, hd0, hd1, hd2⟩
    exact ⟨(raw / 100000).toNat, by omega⟩
  · rintro ⟨high, hraw⟩
    omega

namespace Instruction

variable {cells : Array Int} {offset : Int} {i : Instruction}

/-- The word of the instruction. -/
def word (i : Instruction) : Int := i.opcode.code + 100 * modeWord i.operands

theorem cells_eq (i : Instruction) : i.cells = i.word :: i.operands.map Operand.cell := rfl

/-- The modes of the operands, lowest slot first. -/
def modes (i : Instruction) : List Mode := i.operands.map Operand.mode

theorem length_modes (i : Instruction) : i.modes.length = i.opcode.arity := by
  rw [modes, List.length_map, length_operands]

/-- The digit that writes the mode in a slot; nothing is written where there is none. -/
def slotDigit (modes : List Mode) (slot : Nat) : Int := (modes[slot]?.map modeDigit).getD 0

theorem slotDigit_cases (modes : List Mode) (slot : Nat) :
    slotDigit modes slot = 0 ∨ slotDigit modes slot = 1 := by
  unfold slotDigit
  cases modes[slot]? with
  | none => exact .inl rfl
  | some mode => exact modeDigit_cases mode

theorem word_eq (i : Instruction) : i.word = i.opcode.code + 100 * slotDigit i.modes 0 +
    1000 * slotDigit i.modes 1 + 10000 * slotDigit i.modes 2 := by
  unfold word modes slotDigit
  cases i <;> simp [operands, modeWord] <;> omega

/-- The word says the same as that of the instruction: it may have any modes in the slots that the
instruction does not use, and any digits above them. -/
def SpeltBy (i : Instruction) (raw : Int) : Prop :=
  ∃ (spare : Nat → Int) (high : Nat), (∀ slot, spare slot = 0 ∨ spare slot = 1) ∧
    (∀ slot < i.opcode.arity, spare slot = 0) ∧
    raw = i.word + 100 * spare 0 + 1000 * spare 1 + 10000 * spare 2 + 100000 * high

theorem speltBy_word (i : Instruction) : i.SpeltBy i.word :=
  ⟨fun _ => 0, 0, fun _ => .inl rfl, fun _ _ => rfl, by simp⟩

/-- **The words that say the same** as that of an instruction split into its operation and the modes
of its operands. -/
theorem speltBy_iff {raw : Int} : i.SpeltBy raw ↔ ∃ w, Opword.decode raw = .ok w ∧
    w.opcode = i.opcode ∧ i.modes <+: w.modes := by
  simp only [Opword.decode_eq_ok_iff_digits]
  constructor
  · rintro ⟨spare, high, hbit, hown, rfl⟩
    -- each slot has the mode of its operand, or the one that its spare digit writes
    have hslot : ∀ slot, ∃ mode, modeDigit mode = slotDigit i.modes slot + spare slot ∧
        ∀ m, i.modes[slot]? = some m → m = mode := by
      intro slot
      cases hm : i.modes[slot]? with
      | some m =>
        have hlt : slot < i.modes.length := (List.getElem?_eq_some_iff.1 hm).1
        rw [length_modes] at hlt
        refine ⟨m, ?_, fun m' h => (Option.some.inj h).symm⟩
        rw [slotDigit, hm, hown slot hlt]
        simp
      | none =>
        have hzero : slotDigit i.modes slot = 0 := by rw [slotDigit, hm]; rfl
        rcases hbit slot with h | h
        · exact ⟨.position, by rw [hzero, h]; rfl, by simp⟩
        · exact ⟨.immediate, by rw [hzero, h]; rfl, by simp⟩
    obtain ⟨m0, hd0, hm0⟩ := hslot 0
    obtain ⟨m1, hd1, hm1⟩ := hslot 1
    obtain ⟨m2, hd2, hm2⟩ := hslot 2
    refine ⟨⟨i.opcode, m0, m1, m2⟩, ⟨high, ?_⟩, rfl, ?_⟩
    · simp only [word_eq, hd0, hd1, hd2]
      omega
    · rw [List.prefix_iff_getElem?]
      intro slot hslot
      have hown := List.getElem?_eq_getElem hslot
      have harity := i.opcode.arity_le
      rw [length_modes] at hslot
      obtain rfl | rfl | rfl : slot = 0 ∨ slot = 1 ∨ slot = 2 := by omega
      · rw [hm0 _ hown]; rfl
      · rw [hm1 _ hown]; rfl
      · rw [hm2 _ hown]; rfl
  · rintro ⟨w, ⟨high, rfl⟩, hop, hmodes⟩
    let spare : Nat → Int := fun slot => if slot < i.opcode.arity then 0 else slotDigit w.modes slot
    have hsplit : ∀ slot, slotDigit w.modes slot = slotDigit i.modes slot + spare slot := by
      intro slot
      by_cases hslot : slot < i.opcode.arity
      · have hlt : slot < i.modes.length := by rw [length_modes]; exact hslot
        have hsame := List.prefix_iff_getElem?.1 hmodes slot hlt
        simp only [slotDigit, hsame, List.getElem?_eq_getElem hlt, spare, if_pos hslot, Int.add_zero]
      · have hnone : i.modes[slot]? = none := by
          rw [List.getElem?_eq_none_iff, length_modes]
          omega
        have hzero : slotDigit i.modes slot = 0 := by rw [slotDigit, hnone]; rfl
        simp only [hzero, spare, if_neg hslot, Int.zero_add]
    refine ⟨spare, high, ?_, fun slot hslot => if_pos hslot, ?_⟩
    · intro slot
      simp only [spare]
      split
      · exact .inl rfl
      · exact slotDigit_cases _ _
    · have h0 : modeDigit w.mode0 = _ := hsplit 0
      have h1 : modeDigit w.mode1 = _ := hsplit 1
      have h2 : modeDigit w.mode2 = _ := hsplit 2
      rw [word_eq, hop, h0, h1, h2]
      omega

/-- A word and up to three cells behind it stand at an offset if each of them does. -/
theorem cons_prefix_drop_iff {n : Nat} {raw : Int} {xs : List Int} (hlen : xs.length ≤ 3)
    (hfit : n + xs.length < cells.size) :
    raw :: xs <+: cells.toList.drop n ↔ raw = cells.getD n 0 ∧
      xs <+: [cells.getD (n + 1) 0, cells.getD (n + 2) 0, cells.getD (n + 3) 0] := by
  have hget : ∀ k, (hk : k < cells.size) → cells[k] = cells.getD k 0 := by
    intro k hk
    rw [Array.getD, dif_pos hk]
    rfl
  have hsame : ∀ k < xs.length, (cells.toList.drop (n + 1))[k]? =
      [cells.getD (n + 1) 0, cells.getD (n + 2) 0, cells.getD (n + 3) 0][k]? := by
    intro k hk
    rw [List.getElem?_drop, Array.getElem?_toList, Array.getElem?_eq_getElem (by omega), hget]
    obtain rfl | rfl | rfl : k = 0 ∨ k = 1 ∨ k = 2 := by omega
    all_goals rfl
  rw [List.drop_eq_getElem_cons (by rw [Array.length_toList]; omega), List.cons_prefix_cons,
    Array.getElem_toList, hget, List.prefix_iff_getElem?, List.prefix_iff_getElem?]
  refine and_congr_right fun _ => forall_congr' fun k => forall_congr' fun hk => ?_
  rw [hsame k hk]

/-- **An instruction decodes where cells spell it**: there is a word that says the same as its own, and
the cells of its operands stand behind. -/
theorem decode_eq_ok_iff_spelt : decode cells offset = .ok i ↔ 0 ≤ offset ∧ i.Storable ∧
    ∃ raw, i.SpeltBy raw ∧
      raw :: i.operands.map Operand.cell <+: cells.toList.drop offset.toNat := by
  have harity := i.opcode.arity_le
  have hlen : (i.operands.map Operand.cell).length = i.opcode.arity := by
    rw [List.length_map, length_operands]
  rw [decode_eq_ok_iff]
  constructor
  · rintro ⟨h0, w, hword, hfit, hasm⟩
    obtain ⟨hop, hstore, hmodes, hprefix⟩ := assemble_eq_ok_iff.1 hasm
    have hwidth : w.opcode.length = w.opcode.arity + 1 := rfl
    rw [hop] at hfit hwidth
    exact ⟨h0, hstore, _, speltBy_iff.2 ⟨w, hword, hop, hmodes⟩,
      (cons_prefix_drop_iff (by omega) (by omega)).2 ⟨rfl, hprefix⟩⟩
  · rintro ⟨h0, hstore, raw, hspelt, hprefix⟩
    obtain ⟨w, hword, hop, hmodes⟩ := speltBy_iff.1 hspelt
    have hwidth : w.opcode.length = w.opcode.arity + 1 := rfl
    have hroom := hprefix.length_le
    rw [List.length_cons, hlen, List.length_drop, Array.length_toList] at hroom
    obtain ⟨rfl, hoperands⟩ := (cons_prefix_drop_iff (by omega) (by omega)).1 hprefix
    refine ⟨h0, w, hword, ?_, assemble_eq_ok_iff.2 ⟨hop, hstore, hmodes, hoperands⟩⟩
    rw [hwidth, hop]
    omega

/-- The cells of an instruction that decodes. -/
theorem extract_of_decode (h : decode cells offset = .ok i) :
    (cells.extract (offset.toNat + 1) (offset.toNat + i.length)).toList = i.cells.tail := by
  obtain ⟨-, -, raw, -, rest, hrest⟩ := decode_eq_ok_iff_spelt.1 h
  have hbehind : cells.toList.drop (offset.toNat + 1) = i.operands.map Operand.cell ++ rest := by
    rw [← List.drop_drop, ← hrest]
    rfl
  have hlen : (i.operands.map Operand.cell).length = offset.toNat + i.length - (offset.toNat + 1) := by
    rw [List.length_map, length_operands, Nat.add_sub_add_left]
    rfl
  rw [Array.toList_extract, List.extract_eq_take_drop, hbehind, ← hlen, List.take_left]
  rfl

/-- **Decoding undoes writing down, and accepts nothing else.** An instruction whose destination, if it
has one, is an address is read back from its cells, wherever they stand. Conversely, whatever decodes
has an address for its destination, all of its cells are there, those of its operands are the ones
that write it down, and its word says the same as its own: it differs in modes of slots that are not
used and in digits above the modes. No other cells have a say, whether they are changed or added. -/
theorem decode_cells :
    (∀ (i : Instruction) (before behind : List Int), i.Storable →
      decode (before ++ i.cells ++ behind).toArray before.length = .ok i) ∧
    ∀ (cells : Array Int) (offset : Int) (i : Instruction), decode cells offset = .ok i →
      i.Storable ∧ 0 ≤ offset ∧ offset + i.length ≤ cells.size ∧
      (cells.extract (offset.toNat + 1) (offset.toNat + i.length)).toList = i.cells.tail ∧
      (∃ raw, cells[offset.toNat]? = some raw ∧ i.SpeltBy raw) ∧
      (∀ cells' : Array Int,
        (∀ k < i.length, cells'[offset.toNat + k]? = cells[offset.toNat + k]?) →
        decode cells' offset = .ok i) ∧
      ∀ more : Array Int, decode (cells ++ more) offset = .ok i := by
  refine ⟨?_, ?_⟩
  · intro i before behind hstore
    refine decode_eq_ok_iff_spelt.2 ⟨by omega, hstore, i.word, speltBy_word i, ?_⟩
    rw [← cells_eq, Int.toNat_natCast, List.append_assoc, List.drop_left]
    exact List.prefix_append _ _
  · intro cells offset i h
    obtain ⟨h0, hstore, raw, hspelt, hprefix⟩ := decode_eq_ok_iff_spelt.1 h
    obtain ⟨-, hfits⟩ := decode_fits h
    have hraw : cells[offset.toNat]? = some raw := by
      have hhead := List.prefix_iff_getElem?.1 hprefix 0 (by simp)
      simpa using hhead
    refine ⟨hstore, h0, hfits, extract_of_decode h, ⟨raw, hraw, hspelt⟩,
      fun cells' hsame => decode_local h hsame, fun more => decode_local h fun k hk => ?_⟩
    exact Array.getElem?_append_left (by omega)

/-- An output whose word has modes in slots that it does not use and a digit above them: it is read
back from its own word all the same. -/
theorem decode_cells_spare :
    let i : Instruction := .output (.value (-5))
    decode #[0, 711104, -5] 1 = .ok i ∧ i.SpeltBy 711104 ∧
      i.Storable ∧ i.cells = [104, -5] ∧ decode #[99, 104, -5, 7] 1 = .ok i := by
  intro i
  have h : decode #[0, 711104, -5] 1 = .ok i := rfl
  obtain ⟨hstore, -, -, -, ⟨raw, hraw, hspelt⟩, -⟩ := decode_cells.2 _ _ _ h
  cases hraw
  exact ⟨h, hspelt, hstore, rfl, decode_cells.1 i [99] [7] hstore⟩

end Instruction

end Intcode
