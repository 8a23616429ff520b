import Intcode.Numeral

/-!
# Words

A word is a signed integer of 32 bits. Memory holds words; a number of any size
becomes a word by reduction modulo 2³². The written form of a word is an optional
sign and ASCII digits.

* `Word.wrap_inRange`, `Word.wrap_eq_self`: reduction gives a word, and leaves a
  word alone.
* `Word.wrap_add`, `Word.wrap_mul`: sums and products may be reduced first.
* `Word.writable_of_inRange`: a word can be written.
* `Word.parse_toString`: the written form of a word is read back as that word.
-/

namespace Intcode

/-- Why a text is not a word. -/
inductive WordError where
  /-- The text is not a sign and digits. -/
  | notDecimal (token : String)
  /-- The text has more digits than are read. -/
  | tooLong (digits : Nat)
  /-- The number does not fit 32 bits. -/
  | outOfRange (token : String)
  deriving DecidableEq, Repr

/-- The text of a word error. -/
def WordError.message : WordError → String
  | .notDecimal token => "not a decimal integer: " ++ Text.quoted token
  | .tooLong digits => Numeral.tooLongMessage digits
  | .outOfRange token => token ++ " is out of the 32-bit word range"

namespace Word

/-- The least word, -2³¹. -/
def least : Int := -2147483648

/-- The greatest word, 2³¹ - 1. -/
def greatest : Int := 2147483647

/-- Does the number fit a word? -/
def InRange (v : Int) : Prop := least ≤ v ∧ v ≤ greatest

instance (v : Int) : Decidable (InRange v) := inferInstanceAs (Decidable (_ ∧ _))

/-- The word that is congruent to `v` modulo 2³². -/
def wrap (v : Int) : Int := v.bmod 4294967296

/-- Reduction gives a word. -/
theorem wrap_inRange (v : Int) : InRange (wrap v) := by
  simp only [InRange, wrap, least, greatest, Int.bmod]
  omega

/-- Reduction leaves a word alone. -/
theorem wrap_eq_self {v : Int} (h : InRange v) : wrap v = v := by
  simp only [InRange, least, greatest] at h
  simp only [wrap, Int.bmod]
  omega

@[simp] theorem wrap_wrap (v : Int) : wrap (wrap v) = wrap v := wrap_eq_self (wrap_inRange v)

/-- A sum may be reduced first. -/
theorem wrap_add (v w : Int) : wrap (wrap v + wrap w) = wrap (v + w) := by
  simp [wrap]

/-- A product may be reduced first. -/
theorem wrap_mul (v w : Int) : wrap (wrap v * wrap w) = wrap (v * w) := by
  simp [wrap]

/-- Reads a word: an optional sign and ASCII digits, nothing else. -/
def parse (token : String) : Except WordError Int :=
  let (negative, digits) := Numeral.readSign token.toList
  if digits.isEmpty || !digits.all Char.isDigit then .error (.notDecimal token)
  else if digits.length > Numeral.maxDigits then .error (.tooLong digits.length)
  else
    let value := Numeral.signed negative (Numeral.readDigits digits)
    if InRange value then .ok value else .error (.outOfRange token)

/-- A word has ten digits at most. -/
theorem length_digits {v : Int} (h : InRange v) : (Nat.toDigits 10 v.natAbs).length ≤ 10 := by
  rw [Nat.length_toDigits_le_iff (by decide) (by decide)]
  simp only [InRange, least, greatest] at h
  omega

/-- A word can be written. -/
theorem writable_of_inRange {v : Int} (h : InRange v) : Numeral.writable v = true :=
  decide_eq_true (Nat.le_trans (length_digits h) (by decide))

/-- **The written form of a word is read back as that word.** -/
theorem parse_toString {v : Int} (h : InRange v) : parse (toString v) = .ok v := by
  have hdig : ∀ c ∈ Nat.toDigits 10 v.natAbs, c.isDigit = true := fun c hc =>
    Nat.isDigit_of_mem_toDigits (by decide) (by decide) hc
  have hsign : Numeral.readSign (toString v).toList =
      (decide (v < 0), Nat.toDigits 10 v.natAbs) := by
    rw [Numeral.toList_toString_int]
    by_cases hv : v < 0
    · simp [hv, Numeral.readSign]
    · simp only [hv, if_false, List.nil_append, decide_false]
      cases hd : Nat.toDigits 10 v.natAbs with
      | nil => rfl
      | cons c s =>
        have hc := hdig c (by simp [hd])
        unfold Numeral.readSign
        split
        · next heq => cases heq; exact absurd hc (by decide)
        · next heq => cases heq; exact absurd hc (by decide)
        · rfl
  have hne : (Nat.toDigits 10 v.natAbs).isEmpty = false := by
    simp
  have hall : (Nat.toDigits 10 v.natAbs).all Char.isDigit = true := List.all_eq_true.2 hdig
  have hval : Numeral.signed (decide (v < 0)) (Numeral.readDigits (Nat.toDigits 10 v.natAbs)) = v := by
    rw [Numeral.readDigits_toDigits, Numeral.signed]
    by_cases hv : v < 0
    · rw [decide_eq_true hv, if_pos rfl]; omega
    · rw [decide_eq_false hv, if_neg (by decide)]; omega
  have hlimit : ¬ (Nat.toDigits 10 v.natAbs).length > Numeral.maxDigits :=
    Nat.not_lt.2 (of_decide_eq_true (writable_of_inRange h))
  simp only [parse, hsign, hne, hall, hval, hlimit, h, Bool.not_true, Bool.or_self, if_false,
    if_true, Bool.false_eq_true]

end Word

end Intcode
