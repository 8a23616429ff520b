import Intcode.Text.Glyph
import Intcode.Yaml.Cursor
import Intcode.Yaml.Flaw

/-!
# The text of scalars

A scalar is written plainly or between quotes. Either way it may run over several
lines: a single line break in it reads as a space, and of several breaks the first
one is dropped.
-/

namespace Intcode.Yaml

open Text (Glyph)

/-- Line breaks as they read inside of a scalar: the first one, and those after it. -/
def foldBreaks (first : Char) (more : List Char) : List Char :=
  if first ≠ '\n' then first :: more
  else if more.isEmpty then [' ']
  else more

/-! ## Plain scalars -/

/-- Ends a plain scalar at a colon that stands before `rest`? -/
def colonEnds (flow : Bool) : List Char → Bool
  | [] => true
  | c :: _ => isGap c || (flow && [',', '[', ']', '{', '}'].contains c)

/-- How many characters of a plain scalar stand before the next gap or mark. -/
def plainLength (flow : Bool) : List Char → Nat
  | [] => 0
  | c :: rest =>
    if isGap c || (c = ':' && colonEnds flow rest) || (flow && [',', '?', '[', ']', '{', '}'].contains c)
    then 0
    else plainLength flow rest + 1

/-- Spaces and line breaks after a line break inside of a plain scalar: the breaks, and the cursor
past them; `none` in front of the mark of a document. -/
def plainBreaks : Nat → Cursor → Option (List Char) × Cursor
  | 0, c => (some [], c)
  | n + 1, c =>
    if c.peek? 0 = some ' ' then plainBreaks n c.next
    else if c.atBreak then
      let after := c.skipBreak
      if after.atDocumentMark then (none, after)
      else
        let (more, last) := plainBreaks n after
        (more.map (c.breakChar :: ·), last)
    else (some [], c)

/-- What stands between two parts of a plain scalar. -/
structure PlainGap where
  /-- How the gap reads. An empty gap ends the scalar. -/
  text : List Char
  cursor : Cursor
  /-- Does the gap hold a line break? -/
  broken : Bool

/-- The gap at the cursor. -/
def plainGap (c : Cursor) : PlainGap :=
  let after := c.skipSpaces
  if after.atBreak then
    let below := after.skipBreak
    if below.atDocumentMark then ⟨[], below, true⟩
    else
      match plainBreaks below.left below with
      | (none, last) => ⟨[], last, true⟩
      | (some more, last) => ⟨foldBreaks after.breakChar more, last, true⟩
  else ⟨List.replicate (after.index - c.index) ' ', after, false⟩

/-- A scalar that was read: its text, the cursor past it, and whether a line break was the last
thing passed. -/
structure ScalarRead where
  text : List Char
  cursor : Cursor
  broken : Bool

/-- Reads the parts of a plain scalar, the first one behind the gap `before`. In a block, a line that
is not indented by `indent` columns ends it. -/
def readPlain (flow : Bool) (indent : Int) : Nat → PlainGap → ScalarRead
  | 0, before => ⟨[], before.cursor, before.broken⟩
  | n + 1, before =>
    let c := before.cursor
    let length := if c.peek? 0 = some '#' then 0 else plainLength flow c.rest
    if length = 0 then ⟨[], c, before.broken⟩
    else
      let part := before.text ++ c.rest.take length
      let gap := plainGap (c.skip length)
      if gap.text.isEmpty || gap.cursor.peek? 0 = some '#' ||
          (!flow && (gap.cursor.column : Int) < indent) then
        ⟨part, gap.cursor, gap.broken⟩
      else
        let more := readPlain flow indent n gap
        ⟨part ++ more.text, more.cursor, more.broken⟩

/-! ## Quoted scalars -/

/-- The character that a letter after a backslash stands for. -/
def escaped? : Char → Option Char
  | '0' => some '\x00'
  | 'a' => some '\x07'
  | 'b' => some '\x08'
  | 't' => some '\t'
  | '\t' => some '\t'
  | 'n' => some '\n'
  | 'v' => some '\x0B'
  | 'f' => some '\x0C'
  | 'r' => some '\r'
  | 'e' => some '\x1B'
  | ' ' => some ' '
  | '"' => some '"'
  | '\\' => some '\\'
  | '/' => some '/'
  | 'N' => some '\x85'
  | '_' => some '\xA0'
  | 'L' => some '\u2028'
  | 'P' => some '\u2029'
  | _ => none

/-- How many hexadecimal digits follow a letter after a backslash. -/
def escapeWidth? : Char → Option Nat
  | 'x' => some 2
  | 'u' => some 4
  | 'U' => some 8
  | _ => none

/-- The value of a hexadecimal digit. -/
def hexValue? (c : Char) : Option Nat :=
  if c.isDigit then some (c.toNat - 48)
  else if 'a' ≤ c && c ≤ 'f' then some (c.toNat - 87)
  else if 'A' ≤ c && c ≤ 'F' then some (c.toNat - 55)
  else none

/-- The number that hexadecimal digits stand for. -/
def readHex (s : List Char) : Option Nat :=
  s.foldlM (fun n c => (hexValue? c).map (16 * n + ·)) 0

/-- The glyph whose number is written in hexadecimal digits at the front of a text. -/
def readCode (width : Nat) (text : List Char) : Except Flaw Glyph :=
  let digits := text.take width
  match readHex digits with
  | none => .error .malformed
  | some code =>
    if digits.length < width then .error .cut
    else
      match Glyph.ofNat? code with
      | some g => .ok g
      | none => .error (.noCharacter code)

/-- Line breaks and blanks after a line break between quotes. The mark of a document may not stand
there. -/
def quotedBreaks : Nat → Cursor → Except Flaw (List Char × Cursor)
  | 0, c => .ok ([], c)
  | n + 1, c =>
    if c.atDocumentMark then .error .malformed
    else
      let after := c.skipBlanks
      if after.atBreak then
        (quotedBreaks n after.skipBreak).map fun r => (after.breakChar :: r.1, r.2)
      else .ok ([], after)

/-- Reads the text up to the closing quote, and goes past it. A text between double quotes knows
escapes; between single quotes, a quote is written twice. -/
def readQuoted (double : Bool) : Nat → Cursor → Except Flaw (List Glyph × Cursor)
  | 0, _ => .error .cut
  | n + 1, c =>
    match c.peek? 0 with
    | none => .error .cut
    | some '\'' =>
      if double then prepend ['\''] (readQuoted double n c.next)
      else if c.peek? 1 = some '\'' then prepend ['\''] (readQuoted double n (c.skip 2))
      else .ok ([], c.next)
    | some '"' =>
      if double then .ok ([], c.next) else prepend ['"'] (readQuoted double n c.next)
    | some '\\' =>
      if double then readEscape n c.next else prepend ['\\'] (readQuoted double n c.next)
    | some ch =>
      if isGap ch then
        let after := c.skipBlanks
        if after.atBreak then do
          let (more, last) ← quotedBreaks after.left after.skipBreak
          prepend (foldBreaks after.breakChar more) (readQuoted double n last)
        else prepend (c.rest.take (after.index - c.index)) (readQuoted double n after)
      else prepend [ch] (readQuoted double n c.next)
where
  /-- Puts characters before those that were read. -/
  prepend (s : List Char) (r : Except Flaw (List Glyph × Cursor)) : Except Flaw (List Glyph × Cursor) :=
    r.map fun (t, c) => (s.map .char ++ t, c)
  /-- Reads an escape, behind its backslash, and the text after it. -/
  readEscape (n : Nat) (c : Cursor) : Except Flaw (List Glyph × Cursor) :=
    match c.peek? 0 with
    | none => .error .cut
    | some ch =>
      match escaped? ch, escapeWidth? ch with
      | some meant, _ => prepend [meant] (readQuoted double n c.next)
      | none, some width => do
        let g ← readCode width c.next.rest
        let (text, last) ← readQuoted double n (c.next.skip width)
        return (g :: text, last)
      | none, none =>
        if isBreak ch then do
          let (more, last) ← quotedBreaks c.left c.skipBreak
          prepend more (readQuoted double n last)
        else .error .malformed

end Intcode.Yaml
