import Intcode.Conversion

/-!
# The value of plain scalars

A plain scalar stands for null, a truth value, a number or a timestamp if it is
written like one, and for its text otherwise. Whole numbers may be written in base
two, eight, ten and sixteen, and with parts of sixty; a floating point number needs
a point, and a sign in its exponent. Underscores in a number say nothing.
-/

namespace Intcode.Yaml

/-- Why a scalar has no value. -/
inductive ScalarError where
  /-- The scalar is reserved, and stands for nothing. -/
  | reserved
  /-- The scalar is written like a number of this base, and has no digits. -/
  | noDigits (base : Nat)
  /-- The scalar is a number of too many digits. -/
  | tooLong (digits : Nat)
  /-- The scalar is a floating point number of so many parts of sixty that the first one counts units
  no floating point number reaches. -/
  | tooManyParts
  /-- The scalar is a timestamp out of range. -/
  | timestamp (cause : TimestampError)
  deriving DecidableEq, Repr

namespace ScalarError

/-- The text of a scalar error; one of a reserved scalar is never shown. -/
def message : ScalarError → String
  | reserved => ""
  | noDigits base => s!"invalid literal for int() with base {base}: ''"
  | tooLong digits => Numeral.tooLongMessage digits
  | tooManyParts => "int too large to convert to float"
  | timestamp cause => cause.message

/-- The family of a scalar error. -/
def kind : ScalarError → ConversionKind
  | tooManyParts => .overflow
  | _ => .value

end ScalarError

namespace Plain

/-- The truth value that a text is written like. -/
def bool? (s : String) : Option Bool :=
  if ["yes", "Yes", "YES", "true", "True", "TRUE", "on", "On", "ON"].contains s then some true
  else if ["no", "No", "NO", "false", "False", "FALSE", "off", "Off", "OFF"].contains s then some false
  else none

/-- Is the text written like null? -/
def isNull (s : String) : Bool := ["", "~", "null", "Null", "NULL"].contains s

/-- Are these digits and underscores, and at least one of them? -/
def digitsLike (p : Char → Bool) (s : List Char) : Bool :=
  !s.isEmpty && s.all fun c => p c || c = '_'

/-- Are these digits and underscores behind a first digit? -/
def numberLike (first : Char → Bool) : List Char → Bool
  | [] => false
  | c :: s => first c && s.all fun d => d.isDigit || d = '_'

/-- Is this a part of sixty: one digit, or two of which the first is below six? -/
def sixtyLike : List Char → Bool
  | [a] => a.isDigit
  | [a, b] => '0' ≤ a && a ≤ '5' && b.isDigit
  | _ => false

/-- The value of a digit of base sixteen or below. -/
def digitValue (c : Char) : Nat :=
  if c.isDigit then c.toNat - 48
  else if 'a' ≤ c then c.toNat - 87
  else c.toNat - 55

/-- The number that digits of a base stand for. -/
def ofDigits (base : Nat) (s : List Char) : Nat :=
  s.foldl (fun n c => base * n + digitValue c) 0

/-- The digits without the underscores. -/
def bare (s : List Char) : List Char := s.filter (· ≠ '_')

/-- The number that digits of a power of two stand for; there has to be a digit. -/
def binaryBase (base : Nat) (s : List Char) : Except ScalarError Nat :=
  if (bare s).isEmpty then .error (.noDigits base) else .ok (ofDigits base (bare s))

/-- The number that decimal digits stand for; there may not be too many. -/
def decimal (s : List Char) : Except ScalarError Nat :=
  let digits := bare s
  if digits.length > Numeral.maxDigits then .error (.tooLong digits.length) else .ok (ofDigits 10 digits)

/-- The number of parts of sixty, the highest first. -/
def sixties (parts : List (List Char)) : Except ScalarError Nat :=
  parts.foldlM (fun n part => (decimal part).map (60 * n + ·)) 0

/-- Is the digit one above nought? -/
def isPositiveDigit (c : Char) : Bool := '1' ≤ c && c ≤ '9'

/-- The size of the whole number that a text without a sign is written like. -/
def natural? (s : List Char) : Option (Except ScalarError Nat) :=
  match s with
  | ['0'] => some (.ok 0)
  | '0' :: 'b' :: rest =>
    if digitsLike (fun c => c = '0' || c = '1') rest then some (binaryBase 2 rest) else none
  | '0' :: 'x' :: rest =>
    if digitsLike (fun c => c.isDigit || ('a' ≤ c && c ≤ 'f') || ('A' ≤ c && c ≤ 'F')) rest then
      some (binaryBase 16 rest)
    else none
  | '0' :: rest =>
    if digitsLike (fun c => '0' ≤ c && c ≤ '7') rest then some (.ok (ofDigits 8 (bare rest))) else none
  | s =>
    match s.splitOn ':' with
    | [whole] => if numberLike isPositiveDigit whole then some (decimal whole) else none
    | whole :: parts =>
      if numberLike isPositiveDigit whole && parts.all sixtyLike then some (sixties (whole :: parts))
      else none
    | [] => none

/-- The whole number that a text is written like. -/
def int? (s : List Char) : Option (Except ScalarError Int) :=
  let (negative, body) := Numeral.readSign s
  (natural? body).map fun r => r.map (Numeral.signed negative)

/-- A power of ten: nothing, or a mark, a sign and digits. -/
def powerLike : List Char → Bool
  | [] => true
  | e :: sign :: digits =>
    (e = 'e' || e = 'E') && (sign = '+' || sign = '-') && !digits.isEmpty && digits.all Char.isDigit
  | _ => false

/-- Digits and underscores with a power of ten behind them. -/
def fractionLike (s : List Char) : Bool :=
  powerLike (s.dropWhile fun c => c.isDigit || c = '_')

/-- The number of parts of sixty, the last part first, of which that of `base` is the next. The sum
is rounded after each part. A base that no floating point number reaches is an error, whatever its
part. -/
def sumSixties (base : Nat) (sum : Binary64) : List Binary64 → Except ScalarError Binary64
  | [] => .ok sum
  | part :: rest =>
    match Binary64.ofRatio false base 1 with
    | .finite sign m e =>
      sumSixties (60 * base) (sum.addSize (part.mulSize (.finite sign m e))) rest
    | _ => .error .tooManyParts

/-- The number of parts of sixty, the last one of which has a fraction. -/
def sixtiesFraction (negative : Bool) (parts : List (List Char)) (fraction : List Char) :
    Except ScalarError Binary64 :=
  let number (digits : List Char) (places : Nat) : Binary64 :=
    .ofDecimal false (ofDigits 10 digits) (-(places : Int))
  let sizes := match parts.reverse with
    | [] => []
    | last :: rest =>
      number (bare (last ++ fraction)) (bare fraction).length :: rest.map fun part => number (bare part) 0
  (sumSixties 1 (number [] 0) sizes).map (·.withSign negative)

/-- The floating point number that a text without a sign is written like. -/
def unsignedFloat? (negative : Bool) (s : List Char) : Option (Except ScalarError Binary64) :=
  let whole := s.takeWhile (· ≠ '.')
  match s.dropWhile (· ≠ '.') with
  | '.' :: fraction =>
    match whole.splitOn ':' with
    | [digits] =>
      if numberLike Char.isDigit digits && fractionLike fraction then
        (Binary64.readDecimal negative (bare s)).map .ok
      else none
    | digits :: parts =>
      if numberLike Char.isDigit digits && parts.all sixtyLike &&
          fraction.all (fun c => c.isDigit || c = '_') then
        some (sixtiesFraction negative (digits :: parts) fraction)
      else none
    | [] => none
  | _ => none

/-- The floating point number that a text is written like. A number that begins with its point has
no sign. -/
def float? (s : List Char) : Option (Except ScalarError Binary64) :=
  let (negative, body) := Numeral.readSign s
  match body with
  | '.' :: rest =>
    let name := String.ofList rest
    if ["inf", "Inf", "INF"].contains name then some (.ok (.infinity negative))
    else if body.length < s.length then none
    else if ["nan", "NaN", "NAN"].contains name then some (.ok .nan)
    else if numberLike Char.isDigit (rest.takeWhile fun c => c.isDigit || c = '_') && fractionLike rest then
      (Binary64.readDecimal false (bare body)).map .ok
    else none
  | body => unsignedFloat? negative body

/-- The timestamp that a text is written like. -/
def timestamp? (s : List Char) : Option (Except ScalarError Timestamp) :=
  (Timestamp.read? s).map fun r => r.mapError .timestamp

/-- The value of a plain scalar. The marks of a merged mapping and of a default value are
reserved. -/
def value (text : String) : Except ScalarError Scalar :=
  let s := text.toList
  if isNull text then .ok .null
  else if text = "<<" || text = "=" then .error .reserved
  else if let some b := bool? text then .ok (.bool b)
  else if let some r := float? s then r.map .float
  else if let some r := int? s then r.map .int
  else if let some r := timestamp? s then r.map .timestamp
  else .ok (.text text)

end Plain

end Intcode.Yaml
