import Intcode.Value

/-!
# Converting loose values

A setting that has to be a whole number takes whole numbers, truth values, texts
that hold a numeral, and floating point numbers, which lose their fraction.
-/

namespace Intcode

/-- Why a value cannot be converted. -/
inductive ConversionError where
  /-- A value of this kind is no number. -/
  | notANumber (kind : String)
  /-- The text holds no numeral. -/
  | numeral (cause : NumeralError)
  /-- What is no number has no whole part. -/
  | nan
  /-- An infinity has no whole part. -/
  | infinity
  /-- A value of this kind has no members. -/
  | notIterable (kind : String)
  /-- A number has more digits than are written. -/
  | notWritable
  deriving DecidableEq, Repr

/-- The families of conversion errors. -/
inductive ConversionKind where
  /-- The value is of the wrong kind. -/
  | type
  /-- The value is of the right kind and has no meaning as a number. -/
  | value
  /-- The value is too large. -/
  | overflow
  deriving DecidableEq, Repr

namespace ConversionError

/-- The family of a conversion error. -/
def kind : ConversionError → ConversionKind
  | notANumber _ | notIterable _ => .type
  | numeral _ | nan | notWritable => .value
  | infinity => .overflow

/-- The text of a conversion error. -/
def message : ConversionError → String
  | notANumber kind =>
    "int() argument must be a string, a bytes-like object or a real number, not '" ++ kind ++ "'"
  | numeral cause => cause.message
  | nan => "cannot convert float NaN to integer"
  | infinity => "cannot convert float infinity to integer"
  | notIterable kind => "'" ++ kind ++ "' object is not iterable"
  | notWritable => Numeral.limitMessage ""

end ConversionError

/-- The whole number that a scalar stands for. -/
def Scalar.toInt : Scalar → Except ConversionError Int
  | .null => .error (.notANumber "NoneType")
  | .bool b => .ok (if b then 1 else 0)
  | .int i => .ok i
  | .float x =>
    match x.truncate? with
    | some i => .ok i
    | none => .error (if x = .nan then .nan else .infinity)
  | .text s => (Numeral.read s).mapError .numeral
  | .ragged s => (Numeral.readGlyphs s).mapError .numeral
  | .timestamp t => .error (.notANumber t.kindName)

namespace Value

/-- The whole number that a value stands for. -/
def toInt : Value → Except ConversionError Int
  | .scalar s => s.toInt
  | v => .error (.notANumber v.kindName)

/-- The text of a value on its own, if all of its numbers can be written. -/
def toText (v : Value) : Except ConversionError String :=
  if Numeral.allWritable v.ints then .ok v.plainText else .error .notWritable

/-- The segments of a text between commas, without those that are blank. -/
def segments (s : String) : List String :=
  ((s.toList.splitOn ',').filter fun p => !(Text.trim p).isEmpty).map String.ofList

/-- The segments of a text with lone surrogates between commas, without those that are blank. -/
def raggedSegments (s : List Text.Glyph) : List Scalar :=
  ((s.splitOn (.char ',')).filter fun p => !p.all fun g => g.char?.any Text.isBlank).map .ofGlyphs

/-- The members of a value that stands for several: a list has its members, a table its keys, and a
text its segments between commas. -/
def members : Value → Except ConversionError (List Value)
  | .scalar (.text s) => .ok ((segments s).map .text)
  | .scalar (.ragged s) => .ok ((raggedSegments s).map .scalar)
  | .list items => .ok items
  | .table entries => .ok (entries.map fun e => .scalar e.1)
  | v => .error (.notIterable v.kindName)

/-- The whole numbers that a value stands for. -/
def toInts (v : Value) : Except ConversionError (List Int) := do
  let items ← v.members
  items.mapM toInt

end Value

end Intcode
