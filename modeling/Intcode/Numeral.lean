import Intcode.Text.Blank
import Intcode.Text.DecimalDigit
import Intcode.Text.Glyph

/-!
# Numerals

How a whole number is read from text. Two readers share the limit on the number
of digits: the strict one of program words (see `Intcode.Word`) takes a sign and
ASCII digits and nothing else; the lenient one of configuration values, defined
here, also takes blanks around the number, single underscores between digits and
the decimal digits of every script.

What is written keeps to the same limit: a text that names a number with more digits
is never made (`allWritable`).

* `writable_iff`: which numbers can be written.
* `toList_toString_int`: the written form of a number is a minus sign, if it is
  negative, and the digits of its size.
* `readDigits_toDigits`: the digits of a number are read back as that number.
-/

namespace Intcode

/-- Why a text is not a number. -/
inductive NumeralError where
  /-- The text, which is kept between quotes, is no numeral. -/
  | malformed (quoted : String)
  /-- The text has more digits than the limit. -/
  | tooLong (digits : Nat)
  deriving DecidableEq, Repr

namespace Numeral

/-- No text of more digits is read, and none is written. -/
def maxDigits : Nat := 4300

/-- Can the number be written? -/
def writable (v : Int) : Bool := (Nat.toDigits 10 v.natAbs).length ≤ maxDigits

/-- Can a text be made that names these numbers? -/
def allWritable (numbers : List Int) : Bool := numbers.all writable

/-- **The numbers that can be written** are those below a power of ten. -/
theorem writable_iff {v : Int} : writable v = true ↔ v.natAbs < Nat.pow 10 maxDigits := by
  have hlength : ∀ k, 0 < k → ((Nat.toDigits 10 v.natAbs).length ≤ k ↔ v.natAbs < Nat.pow 10 k) :=
    fun k hk => Nat.length_toDigits_le_iff (by decide) hk
  rw [writable, decide_eq_true_eq]
  exact hlength maxDigits (by decide)

/-- The least number that is too long. -/
theorem writable_pow : writable (Nat.pow 10 maxDigits : Nat) = false := by
  rw [← Bool.not_eq_true, writable_iff, Int.natAbs_natCast]
  exact Nat.lt_irrefl _

/-- What lies between zero and a number that can be written can be written. -/
theorem writable_of_le {a b : Int} (ha : 0 ≤ a) (hab : a ≤ b) (hb : writable b = true) :
    writable a = true := by
  have hsize : a.natAbs ≤ b.natAbs := by omega
  rw [writable_iff] at hb ⊢
  exact Nat.lt_of_le_of_lt hsize hb

theorem writable_neg (v : Int) : writable (-v) = writable v := by
  rw [writable, writable, Int.natAbs_neg]

/-- The message for too many digits: what is said of the number, and what can be done. -/
def limitMessage (detail : String) : String :=
  "Exceeds the limit (" ++ toString maxDigits ++ " digits) for integer string conversion" ++ detail ++
    "; use sys.set_int_max_str_digits() to increase the limit"

/-- The message for a text that has too many digits. -/
def tooLongMessage (digits : Nat) : String :=
  limitMessage (": value has " ++ toString digits ++ " digits")

end Numeral

/-- The text of a numeral error. A text that is shown is cut after two hundred characters. -/
def NumeralError.message : NumeralError → String
  | .malformed quoted =>
    "invalid literal for int() with base 10: " ++ String.ofList (quoted.toList.take 200)
  | .tooLong digits => Numeral.tooLongMessage digits

namespace Numeral

/-- A sign, if there is one: is it a minus, and what follows. -/
def readSign : List Char → Bool × List Char
  | '-' :: s => (true, s)
  | '+' :: s => (false, s)
  | s => (false, s)

/-- The number with the given sign and size. -/
def signed (negative : Bool) (size : Nat) : Int :=
  if negative then -(size : Int) else size

/-- The number that ASCII digits stand for. -/
def readDigits (s : List Char) : Nat := Nat.ofDigitChars 10 s 0

/-- The digits of a number are read back as that number. -/
theorem readDigits_toDigits (n : Nat) : readDigits (Nat.toDigits 10 n) = n :=
  Nat.ofDigitChars_ten_toDigits

/-- **The written form of a number.** -/
theorem toList_toString_int (v : Int) :
    (toString v).toList = (if v < 0 then ['-'] else []) ++ Nat.toDigits 10 v.natAbs := by
  cases v with
  | ofNat n =>
    have : ¬ (Int.ofNat n < 0) := by simp
    rw [if_neg this]
    exact Nat.toList_repr
  | negSucc n =>
    rw [if_pos (Int.negSucc_lt_zero n)]
    show ("-" ++ Nat.repr (n + 1)).toList = _
    rw [String.toList_append, Nat.toList_repr]
    rfl

/-- A character as the lenient reader sees it: blanks beyond ASCII are spaces, and the digits of
every script are ASCII digits. No other character beyond ASCII is part of a numeral. -/
def plain (c : Char) : Char :=
  if c.toNat < 0x7F then c
  else if Text.isBlank c then ' '
  else match Text.digitValue? c with
    | some d => Nat.digitChar d
    | none => '?'

/-- The digits and underscores at the front: the digits, whether the underscores stand singly and
between digits, and what follows. `afterDigit` tells whether a digit stands just before. -/
def spanDigits : Bool → List Char → List Char × Bool × List Char
  | afterDigit, [] => ([], afterDigit, [])
  | afterDigit, c :: s =>
    if c.isDigit then
      let (digits, ok, rest) := spanDigits true s
      (c :: digits, ok, rest)
    else if c = '_' then
      if afterDigit then spanDigits false s else ([], false, s)
    else ([], afterDigit, c :: s)

/-- Reads a numeral the lenient way from a text that errors show as `quoted`. Too many digits are an
error even where something other than blanks follows them. -/
def readShown (quoted : String) (text : List Char) : Except NumeralError Int :=
  let s := (text.map plain).dropWhile Text.isPlainBlank
  let (negative, body) := readSign s
  let (digits, ok, rest) := spanDigits false body
  if !ok then .error (.malformed quoted)
  else if digits.length > maxDigits then .error (.tooLong digits.length)
  else if rest.all Text.isPlainBlank then .ok (signed negative (readDigits digits))
  else .error (.malformed quoted)

/-- Reads a numeral the lenient way. -/
def read (text : String) : Except NumeralError Int := readShown (Text.quoted text) text.toList

/-- Reads a numeral the lenient way from glyphs. A surrogate is no part of a numeral. -/
def readGlyphs (text : List Text.Glyph) : Except NumeralError Int :=
  readShown (Text.quotedGlyphs text) (text.map Text.Glyph.toChar)

end Numeral

end Intcode
