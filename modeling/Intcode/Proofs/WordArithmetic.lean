import Mathlib.Data.Int.Bitwise
import Mathlib.Data.Nat.Bitwise
import Intcode.Proofs.Residue

/-!
# Arithmetic on words

Reduction takes a number to the one word that is congruent to it. It keeps the lowest
32 bits, the highest of which is the sign, and it respects sums and products: what an
addition or a multiplication leaves in memory is what an adder or a multiplier for 32
bits in two's complement gives for the words that were loaded.

* `land_mask`: to mask the lowest bits of a number is to divide by a power of two.
* `wrap_eq_iff`: the word that a number is reduced to.
* `wrap_eq_masked`: reduction in terms of the lowest 32 bits.
* `wrap_add_eq_toInt`, `wrap_mul_eq_toInt`: sums and products in two's complement.
* `Machine.exec_binary`: what an operation leaves in the cell at its destination.
* `wrap_canonical`: all of this together.
-/

namespace Intcode

namespace Word

theorem inRange_iff {v : Int} : InRange v ↔ -2 ^ 31 ≤ v ∧ v ≤ 2 ^ 31 - 1 := by
  unfold InRange least greatest
  omega

/-- **The word that a number is reduced to** is the only one that is congruent to it. -/
theorem wrap_eq_iff {v w : Int} : wrap v = w ↔ InRange w ∧ w ≡ v [ZMOD 2 ^ 32] := by
  constructor
  · rintro rfl
    exact ⟨wrap_inRange v, wrap_eq_wrap_iff.1 (wrap_wrap v)⟩
  · rintro ⟨hrange, hcongr⟩
    rw [← wrap_eq_wrap_iff.2 hcongr, wrap_eq_self hrange]

/-! ## The lowest bits -/

/-- The lowest bits that a number does not have. -/
theorem ldiff_mask (n m : Nat) : Nat.ldiff (2 ^ n - 1) m = 2 ^ n - (m % 2 ^ n + 1) := by
  have hlt : m % 2 ^ n < 2 ^ n := Nat.mod_lt m (Nat.two_pow_pos n)
  apply Nat.eq_of_testBit_eq
  intro i
  rw [Nat.testBit_ldiff, Nat.testBit_two_pow_sub_one, Nat.testBit_two_pow_sub_succ hlt,
    Nat.testBit_mod_two_pow]
  by_cases hi : i < n
  · simp [hi]
  · simp [hi]

/-- **To mask the lowest bits of a number is to divide by a power of two**, whatever the sign of the
number: a negative one has infinitely many bits that are set. -/
theorem land_mask (v : Int) (n : Nat) : Int.land v ((2 ^ n - 1 : Nat) : Int) = v % 2 ^ n := by
  have hpow : ((2 ^ n : Nat) : Int) = 2 ^ n := by push_cast; rfl
  cases v with
  | ofNat m =>
    show ((m &&& (2 ^ n - 1) : Nat) : Int) = (m : Int) % 2 ^ n
    rw [Nat.and_two_pow_sub_one_eq_mod, ← hpow, Int.natCast_emod]
  | negSucc m =>
    show ((Nat.ldiff (2 ^ n - 1) m : Nat) : Int) = Int.negSucc m % 2 ^ n
    have hlt : m % 2 ^ n < 2 ^ n := Nat.mod_lt m (Nat.two_pow_pos n)
    have hneg : Int.negSucc m % ((2 ^ n : Nat) : Int) = (2 ^ n : Nat) - (m % 2 ^ n : Nat) - 1 := by
      rw [Int.negSucc_emod m (by exact_mod_cast Nat.two_pow_pos n)]
      push_cast
      omega
    rw [ldiff_mask, ← hpow, hneg]
    omega

/-- **Reduction keeps the lowest 32 bits**, and the highest of these is the sign. -/
theorem wrap_eq_masked (v : Int) : wrap v =
    let low := Int.land v 0xFFFFFFFF
    if low < 0x80000000 then low else low - 0x100000000 := by
  have hlow : Int.land v 0xFFFFFFFF = v % 2 ^ 32 := land_mask v 32
  simp only [hlow, wrap, Int.bmod]
  omega

/-! ## Two's complement -/

theorem wrap_eq_toInt (v : Int) : wrap v = (BitVec.ofInt 32 v).toInt := by
  rw [BitVec.toInt_ofInt]
  rfl

/-- A sum is reduced to the sum in two's complement. -/
theorem wrap_add_eq_toInt (v w : Int) :
    wrap (v + w) = (BitVec.ofInt 32 v + BitVec.ofInt 32 w).toInt := by
  rw [wrap_eq_toInt, BitVec.ofInt_add]

/-- A product is reduced to the product in two's complement. -/
theorem wrap_mul_eq_toInt (v w : Int) :
    wrap (v * w) = (BitVec.ofInt 32 v * BitVec.ofInt 32 w).toInt := by
  rw [wrap_eq_toInt, BitVec.ofInt_mul]

end Word

namespace Machine

variable {m : Machine} {left right : Operand} {a b d : Int}

/-- **What an operation leaves in memory**: the word of its result in the cell at its destination, and
all other cells as they were. -/
theorem exec_binary (op : BinaryOp) (hleft : m.load left = .ok a) (hright : m.load right = .ok b)
    (hd : m.memory.Inside d) :
    ∃ m', m.exec (.binary op left right (.address d)) = (.ok (), m') ∧
      ∀ c, m'.memory.get? c =
        if c = d then some (Word.wrap (op.apply a b)) else m.memory.get? c := by
  have hcompute : m.compute op left right = .ok (op.apply a b) := by
    simp only [compute, hleft, hright, bind, Except.bind]
    rfl
  have htarget : (Operand.address d).target m.memory = .ok d := by
    simp only [Operand.target, Memory.locate, if_pos hd]
  have hwrite : m.memory.write d (op.apply a b) = .ok (m.memory.put d (op.apply a b)) :=
    Memory.write_eq_ok_iff.2 ⟨hd, rfl⟩
  simp only [exec, hcompute, storeThen, htarget]
  exact ⟨_, rfl, Memory.get?_write hwrite⟩

end Machine

/-- **Reduction is canonical, and words are added and multiplied in two's complement.**

* A number is reduced to the one word that is congruent to it modulo 2³². So exactly the words are left
  alone.
* This word has the lowest 32 bits of the number, and the highest of these as its sign.
* Sums and products may be reduced first.
* An addition or a multiplication whose operands can be loaded, and whose destination is a cell, leaves
  there the sum or the product of what was loaded in two's complement with 32 bits, and touches no other
  cell. -/
theorem Word.wrap_canonical :
    (∀ v w : Int, wrap v = w ↔ (-2 ^ 31 ≤ w ∧ w ≤ 2 ^ 31 - 1) ∧ w ≡ v [ZMOD 2 ^ 32]) ∧
    (∀ v : Int, wrap v = v ↔ -2 ^ 31 ≤ v ∧ v ≤ 2 ^ 31 - 1) ∧
    (∀ v : Int, wrap v =
      let low := Int.land v 0xFFFFFFFF
      if low < 0x80000000 then low else low - 0x100000000) ∧
    (∀ v w : Int, wrap (v + w) = wrap (wrap v + wrap w) ∧ wrap (v * w) = wrap (wrap v * wrap w)) ∧
    ∀ (m : Machine) (left right : Operand) (a b d : Int),
      m.load left = .ok a → m.load right = .ok b → m.memory.Inside d →
      (∃ m', m.exec (.binary .add left right (.address d)) = (.ok (), m') ∧
        ∀ c, m'.memory.get? c = if c = d then some (BitVec.ofInt 32 a + BitVec.ofInt 32 b).toInt
          else m.memory.get? c) ∧
      ∃ m', m.exec (.binary .multiply left right (.address d)) = (.ok (), m') ∧
        ∀ c, m'.memory.get? c = if c = d then some (BitVec.ofInt 32 a * BitVec.ofInt 32 b).toInt
          else m.memory.get? c := by
  refine ⟨?_, ?_, wrap_eq_masked, ?_, ?_⟩
  · intro v w
    rw [wrap_eq_iff, inRange_iff]
  · intro v
    rw [wrap_eq_iff, inRange_iff]
    exact and_iff_left rfl
  · intro v w
    exact ⟨(wrap_add v w).symm, (wrap_mul v w).symm⟩
  · intro m left right a b d hleft hright hd
    rw [← wrap_add_eq_toInt, ← wrap_mul_eq_toInt]
    exact ⟨Machine.exec_binary .add hleft hright hd, Machine.exec_binary .multiply hleft hright hd⟩

/-- The greatest word and one make the least word, and the square of 65536 is zero. -/
theorem Word.wrap_canonical_overflow :
    let m := Machine.boot [1101, 2147483647, 1, 0, 99] (.queue (.ofInputs [])) 9 false
    m.load (.address 1) = .ok 2147483647 ∧ m.memory.Inside 0 ∧
      (∃ m', m.exec (.binary .add (.address 1) (.value 1) (.address 0)) = (.ok (), m') ∧
        m'.memory.get? 0 = some (-2147483648)) ∧
      ∃ m', m.exec (.binary .multiply (.value 65536) (.value 65536) (.address 0)) = (.ok (), m') ∧
        m'.memory.get? 0 = some 0 := by
  intro m
  have hload : m.load (.address 1) = .ok 2147483647 := by decide
  have hinside : m.memory.Inside 0 := by decide
  obtain ⟨-, -, -, -, harithmetic⟩ := Word.wrap_canonical
  obtain ⟨⟨m₁, hadd, hsum⟩, -⟩ :=
    harithmetic m (.address 1) (.value 1) 2147483647 1 0 hload rfl hinside
  obtain ⟨-, m₂, hmul, hproduct⟩ :=
    harithmetic m (.value 65536) (.value 65536) 65536 65536 0 rfl rfl hinside
  exact ⟨hload, hinside, ⟨m₁, hadd, hsum 0⟩, m₂, hmul, hproduct 0⟩

end Intcode
