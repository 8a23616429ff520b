/-!
# A cursor in a document

Where a reader stands in the text of a document: what is left, and the line and
the column, which decide how blocks nest. The end of the text counts as the end of
a line.
-/

namespace Intcode.Yaml

/-- Ends the character a line? -/
def isBreak (c : Char) : Bool :=
  c = '\n' || c = '\r' || c = '\x85' || c = '\u2028' || c = '\u2029'

/-- Is the character a space, a tab or the end of a line? -/
def isGap (c : Char) : Bool := c = ' ' || c = '\t' || isBreak c

/-- May the character stand in a document? -/
def isAllowed (c : Char) : Bool :=
  let n := c.toNat
  n = 0x09 || n = 0x0A || n = 0x0D || (0x20 ≤ n && n ≤ 0x7E) || n = 0x85 ||
    (0xA0 ≤ n && n ≤ 0xFFFD) || 0x10000 ≤ n

/-- The mark that may stand before the first character of a text. -/
def byteOrderMark : Char := '\uFEFF'

/-- A place in a document. -/
structure Cursor where
  rest : List Char
  index : Nat := 0
  line : Nat := 0
  column : Nat := 0
  /-- How many characters the document has. -/
  size : Nat := index + rest.length
  deriving Repr

namespace Cursor

/-- How many characters are left. -/
def left (c : Cursor) : Nat := c.size - c.index

/-- One character on. A byte order mark takes up no column. -/
def next (c : Cursor) : Cursor :=
  match c.rest with
  | [] => c
  | ch :: rest =>
    if isBreak ch then { c with rest, index := c.index + 1, line := c.line + 1, column := 0 }
    else
      { c with rest, index := c.index + 1, column := if ch = byteOrderMark then c.column else c.column + 1 }

/-- Some characters on. -/
def skip : Nat → Cursor → Cursor
  | 0, c => c
  | n + 1, c => skip n c.next

/-- The character some places on. -/
def peek? (c : Cursor) (n : Nat) : Option Char := c.rest[n]?

/-- Is the character some places on a gap, or the end of the text? -/
def gapAt (c : Cursor) (n : Nat) : Bool := (c.peek? n).all isGap

/-- Past the spaces. -/
def skipSpaces (c : Cursor) : Cursor := c.skip (c.rest.takeWhile (· = ' ')).length

/-- Past the spaces and tabs. -/
def skipBlanks (c : Cursor) : Cursor := c.skip (c.rest.takeWhile fun ch => ch = ' ' || ch = '\t').length

/-- Does the cursor stand before a line break? -/
def atBreak (c : Cursor) : Bool := (c.peek? 0).any isBreak

/-- What a line break before the cursor reads as: a line feed, save for the separators of lines and
of paragraphs, which are themselves. -/
def breakChar (c : Cursor) : Char :=
  match c.peek? 0 with
  | some '\u2028' => '\u2028'
  | some '\u2029' => '\u2029'
  | _ => '\n'

/-- Past a line break. A carriage return and the line feed after it are one break. -/
def skipBreak (c : Cursor) : Cursor :=
  match c.rest with
  | '\r' :: '\n' :: rest => { c with rest, index := c.index + 2, line := c.line + 1, column := 0 }
  | _ => c.next

/-- Do three of the given character and a gap stand before the cursor? -/
def marks (c : Cursor) (ch : Char) : Bool := c.rest.take 3 = [ch, ch, ch] && c.gapAt 3

/-- Does the mark of a document, `---` or `...`, stand before the cursor? -/
def atDocumentMark (c : Cursor) : Bool := c.marks '-' || c.marks '.'

end Cursor

end Intcode.Yaml
