import Intcode.Text.Quoted

/-!
# Texts with lone surrogates

An escape in a document may name a surrogate, which is no character but stands in
a text all the same. A text that holds one is a list of glyphs; any other text is
a `String`.
-/

namespace Intcode.Text

/-- A character, or a surrogate that stands alone. -/
inductive Glyph where
  | char (c : Char)
  | surrogate (code : Nat)
  deriving DecidableEq, Repr

namespace Glyph

/-- The glyph with a number, if there is one. -/
def ofNat? (n : Nat) : Option Glyph :=
  if n.isValidChar then some (.char (Char.ofNat n))
  else if n < 0x110000 then some (.surrogate n)
  else none

/-- The character that the glyph is. -/
def char? : Glyph → Option Char
  | char c => some c
  | surrogate _ => none

/-- The glyph as a character; a surrogate becomes the character for what is none. -/
def toChar : Glyph → Char
  | char c => c
  | surrogate _ => '\uFFFD'

/-- The string that glyphs make up, if all of them are characters. -/
def chars? (s : List Glyph) : Option (List Char) := s.mapM char?

/-- How a glyph is shown between quotes. -/
def escape (quote : Char) : Glyph → List Char
  | char c => Text.escape quote c
  | surrogate code => '\\' :: 'u' :: hexDigits 4 code

end Glyph

/-- A text of glyphs between quotes. -/
def quotedGlyphs (s : List Glyph) : String :=
  let quote := quoteFor (s.filterMap Glyph.char?)
  String.ofList (quote :: s.flatMap (Glyph.escape quote) ++ [quote])

end Intcode.Text
