import Intcode.Numeral

/-!
# Binary floating point

Numbers of 64 bits, as exact data: a finite one is a sign, a mantissa below 2⁵³
and a power of two, so that everything said about it is arithmetic on naturals.

* `Binary64.ofRatio`: the number nearest to a ratio; of two that are equally near,
  the one with the even mantissa.
* `Binary64.parse?`: reads a number from a decimal text.
* `Binary64.truncate?`: the whole part of a finite number.
-/

namespace Intcode

/-- A floating point number: mantissa times a power of two, an infinity, or no number at all. -/
inductive Binary64 where
  | nan
  | infinity (negative : Bool)
  | finite (negative : Bool) (mantissa : Nat) (exponent : Int)
  deriving DecidableEq, Repr

namespace Binary64

/-- The least exponent of a finite number. -/
def leastExponent : Int := -1074

/-- The greatest exponent of a finite number. -/
def greatestExponent : Int := 971

/-- The natural nearest to `num / den`; a half goes to the even neighbour. -/
def roundRatio (num den : Nat) : Nat :=
  let q := num / den
  let r := num % den
  if 2 * r < den then q
  else if 2 * r = den then q + q % 2
  else q + 1

/-- `num / den` in units of `2 ^ e`, as a ratio of naturals. -/
def scaled (num den : Nat) (e : Int) : Nat × Nat :=
  (num * Nat.pow 2 (-e).toNat, den * Nat.pow 2 e.toNat)

/-- The exponent at which the mantissa of `num / den` has 53 bits, or the least one. -/
def exponentFor (num den : Nat) : Int :=
  let guess : Int := (num.log2 : Int) - den.log2 - 53
  let (a, b) := scaled num den guess
  let exact := if a / b < Nat.pow 2 53 then guess else guess + 1
  max exact leastExponent

/-- The number with the given sign that is nearest to `num / den`. -/
def ofRatio (negative : Bool) (num den : Nat) : Binary64 :=
  if num = 0 then .finite negative 0 leastExponent
  else
    let e := exponentFor num den
    let (a, b) := scaled num den e
    let m := roundRatio a b
    let (m, e) := if m = Nat.pow 2 53 then (Nat.pow 2 52, e + 1) else (m, e)
    if e > greatestExponent then .infinity negative else .finite negative m e

/-- The number nearest to `digits` times a power of ten. Powers far out of reach are not computed. -/
def ofDecimal (negative : Bool) (digits : Nat) (power : Int) : Binary64 :=
  let magnitude : Int := power + (Nat.toDigits 10 digits).length
  if digits = 0 || magnitude < -400 then .finite negative 0 leastExponent
  else if magnitude > 400 then .infinity negative
  else ofRatio negative (digits * Nat.pow 10 power.toNat) (Nat.pow 10 (-power).toNat)

/-- The size of a finite number as a ratio. -/
def ratio? : Binary64 → Option (Nat × Nat)
  | .finite _ m e => some (m * Nat.pow 2 e.toNat, Nat.pow 2 (-e).toNat)
  | _ => none

/-- The number nearest to what an operation gives on the sizes of two numbers, as ratios. What is
not finite has no size, and the result is then infinite. -/
def combine (op : Nat × Nat → Nat × Nat → Nat × Nat) (x y : Binary64) : Binary64 :=
  match x.ratio?, y.ratio? with
  | some a, some b => ofRatio false (op a b).1 (op a b).2
  | _, _ => .infinity false

/-- The sum of the sizes of two numbers, rounded. -/
def addSize : Binary64 → Binary64 → Binary64 :=
  combine fun (a, b) (c, d) => (a * d + c * b, b * d)

/-- The product of the sizes of two numbers, rounded. -/
def mulSize : Binary64 → Binary64 → Binary64 :=
  combine fun (a, b) (c, d) => (a * c, b * d)

/-- The number with the given sign. -/
def withSign (negative : Bool) : Binary64 → Binary64
  | .finite _ m e => .finite negative m e
  | .infinity _ => .infinity negative
  | .nan => .nan

/-- The whole part of a finite number. -/
def truncate? : Binary64 → Option Int
  | .finite negative m e =>
    let size : Nat := if e < 0 then m / Nat.pow 2 (-e).toNat else m * Nat.pow 2 e.toNat
    some (if negative then -(size : Int) else size)
  | _ => none

/-- Is the number zero? -/
def isZero : Binary64 → Bool
  | .finite _ m _ => m = 0
  | _ => false

/-- Has the number the value of a whole number? -/
def equalsInt : Binary64 → Int → Bool
  | .finite negative m e, i =>
    let v : Int := if negative then -(m : Int) else m
    v * (Nat.pow 2 e.toNat : Nat) = i * (Nat.pow 2 (-e).toNat : Nat)
  | _, _ => false

/-- Are two numbers the same? Both zeros are, and so is what is no number. -/
def same : Binary64 → Binary64 → Bool
  | .nan, .nan => true
  | .infinity a, .infinity b => a = b
  | .finite a m e, .finite b n f => (m = 0 && n = 0) || (a = b && m = n && e = f)
  | _, _ => false

/-! ## Reading -/

/-- Digits before a fraction or an exponent, and what follows. -/
def spanDigits (s : List Char) : List Char × List Char :=
  (s.takeWhile Char.isDigit, s.dropWhile Char.isDigit)

/-- The power of ten after a mantissa. -/
def readPower : List Char → Option Int
  | [] => some 0
  | c :: s =>
    let (negative, digits) := Numeral.readSign s
    if (c = 'e' || c = 'E') && !digits.isEmpty && digits.all Char.isDigit then
      let size : Int := Nat.ofDigitChars 10 digits 0
      some (if negative then -size else size)
    else none

/-- Digits with an optional fraction and an optional power of ten. -/
def readDecimal (negative : Bool) (s : List Char) : Option Binary64 := do
  let (whole, s) := spanDigits s
  let (fraction, s) := match s with
    | '.' :: s => spanDigits s
    | s => ([], s)
  let power ← readPower s
  if whole.isEmpty && fraction.isEmpty then none
  else some (ofDecimal negative (Nat.ofDigitChars 10 (whole ++ fraction) 0) (power - fraction.length))

/-- The text without its underscores, each of which has to stand between two digits. `afterDigit`
tells whether a digit stands just before. -/
def dropUnderscores? : Bool → List Char → Option (List Char)
  | _, [] => some []
  | afterDigit, '_' :: s =>
    if afterDigit && s.head?.any Char.isDigit then dropUnderscores? false s else none
  | _, c :: s => (dropUnderscores? c.isDigit s).map (c :: ·)

/-- The text as a reader of numbers sees it, without blanks around it. -/
def trimPlain (s : List Char) : List Char :=
  let s := (s.map Numeral.plain).dropWhile Text.isPlainBlank
  (s.reverse.dropWhile Text.isPlainBlank).reverse

/-- Reads a number: a decimal, `inf`, `infinity` or `nan` in any case, with an optional sign and
blanks around it. The digits of every script count, and underscores may stand between digits. -/
def parse? (text : String) : Option Binary64 := do
  let s ← dropUnderscores? false (trimPlain text.toList)
  let (negative, s) := Numeral.readSign s
  let name := String.ofList (s.map Char.toLower)
  if name = "inf" || name = "infinity" then some (.infinity negative)
  else if name = "nan" then some .nan
  else readDecimal negative s

end Binary64

end Intcode
