import Intcode.Conversion

/-!
# Flaws of a document

What can be wrong with the text of a document. Most flaws are not told apart: the
text breaks a rule. Two are: an escape may name a number that no character has, and
a file may hold octets that are no text.
-/

namespace Intcode.Yaml

/-- What is wrong with the text of a document. -/
inductive Flaw where
  /-- The text breaks a rule. -/
  | malformed
  /-- An escape names the number of no character. -/
  | noCharacter (code : Nat)
  /-- The text ends where it has to go on. -/
  | cut
  /-- What follows is no text. -/
  | notUtf8
  deriving DecidableEq, Repr

/-- Numbers in escapes are told apart by whether they are words of 31 bits. -/
def Flaw.codeKind (code : Nat) : ConversionKind := if code ≤ 0x7FFFFFFF then .value else .overflow

/-- The text of the flaw that a number in an escape is. -/
def Flaw.codeMessage (code : Nat) : String :=
  if code ≤ 0x7FFFFFFF then "chr() arg not in range(0x110000)"
  else "Python int too large to convert to C int"

end Intcode.Yaml
