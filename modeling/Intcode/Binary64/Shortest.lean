import Intcode.Binary64

/-!
# The shortest decimal of a number

A number is written with the fewest digits that are read back as that number; of
two such decimals the nearer one is taken, and on a tie the one with the even last
digit. Numbers from 10⁻⁴ up to 10¹⁶ are written positionally and always show a
point; others have one digit before the point and a signed power of ten of at
least two digits.
-/

namespace Intcode.Binary64.Shortest

/-- A positive number as a decimal with all its digits: `(m * unit) * 10 ^ power`. -/
structure Exact where
  mantissa : Nat
  /-- What one step of the mantissa is worth. -/
  unit : Nat
  power : Int
  /-- Is the number below half as far away as the one above? -/
  narrow : Bool
  deriving DecidableEq, Repr

/-- The number `m * 2 ^ e` as a decimal: `2 ^ e` is `5 ^ -e * 10 ^ e`. -/
def Exact.ofBinary (m : Nat) (e : Int) : Exact where
  mantissa := m
  unit := Nat.pow 5 (-e).toNat * Nat.pow 2 e.toNat
  power := min e 0
  narrow := m = Nat.pow 2 52 && e > leastExponent

/-- The digits of the number. -/
def Exact.value (x : Exact) : Nat := x.mantissa * x.unit

/-- Four times the halfway point to the neighbour below. -/
def Exact.low (x : Exact) : Nat := (4 * x.mantissa - if x.narrow then 1 else 2) * x.unit

/-- Four times the halfway point to the neighbour above. -/
def Exact.high (x : Exact) : Nat := (4 * x.mantissa + 2) * x.unit

/-- Is `n * 10 ^ power` read back as the number? The decimals that are lie between the halfway
points to the neighbours, and these count if the mantissa is even. -/
def Exact.readsBack (x : Exact) (n : Nat) : Bool :=
  if x.mantissa % 2 = 0 then x.low ≤ 4 * n && 4 * n ≤ x.high
  else x.low < 4 * n && 4 * n < x.high

/-- The decimal of digits that are multiples of `grid` which is read back and is nearest. -/
def Exact.onGrid? (x : Exact) (grid : Nat) : Option Nat :=
  let below := x.value / grid
  let low := below * grid
  let high := (below + 1) * grid
  match x.readsBack low, x.readsBack high with
  | true, true =>
    if 2 * x.value < low + high then some low
    else if 2 * x.value > low + high then some high
    else some (if below % 2 = 0 then low else high)
  | true, false => some low
  | false, true => some high
  | false, false => none

/-- The shortest decimal: grids are tried from the coarsest on. -/
def Exact.shortest (x : Exact) : Nat :=
  let width := (Nat.toDigits 10 x.value).length
  ((List.range width).findSome? fun n => x.onGrid? (Nat.pow 10 (width - 1 - n))).getD x.value

/-- The digits without the zeros at their end, and the position of the point after the first
digit as a power of ten. -/
def significant (n : Nat) (power : Int) : List Char × Int :=
  let digits := Nat.toDigits 10 n
  let kept := (digits.reverse.dropWhile (· = '0')).reverse
  (kept, power + digits.length - 1)

/-- A power of ten in the exponent form. -/
def powerText (e : Int) : List Char :=
  let digits := Nat.toDigits 10 e.natAbs
  'e' :: (if e < 0 then '-' else '+') :: (List.replicate (2 - digits.length) '0' ++ digits)

/-- Digits with their point set: the first of them counts `10 ^ e`. -/
def layout (digits : List Char) (e : Int) : List Char :=
  if -4 ≤ e ∧ e < 16 then
    if e < 0 then '0' :: '.' :: (List.replicate (-e - 1).toNat '0' ++ digits)
    else
      let places := e.toNat + 1
      let whole := digits.take places ++ List.replicate (places - digits.length) '0'
      let fraction := digits.drop places
      whole ++ '.' :: (if fraction.isEmpty then ['0'] else fraction)
  else
    match digits with
    | [d] => d :: powerText e
    | d :: rest => d :: '.' :: (rest ++ powerText e)
    | [] => powerText e

/-- The text of a positive number `m * 2 ^ e`. -/
def positive (m : Nat) (e : Int) : List Char :=
  let x := Exact.ofBinary m e
  let (digits, first) := significant x.shortest x.power
  layout digits first

end Shortest

/-- The text of a number: its shortest decimal. -/
def text : Binary64 → String
  | .nan => "nan"
  | .infinity negative => if negative then "-inf" else "inf"
  | .finite negative m e =>
    let body := if m = 0 then ['0', '.', '0'] else Shortest.positive m e
    String.ofList (if negative then '-' :: body else body)

end Intcode.Binary64
