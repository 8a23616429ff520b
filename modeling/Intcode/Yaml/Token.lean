import Intcode.Yaml.Scalar
import Intcode.Yaml.Supply

/-!
# Tokens of a document

The marks and scalars of a document in order. Blocks have no marks of their own:
where the indentation grows, a block starts, and where it shrinks, blocks end.

A mapping has no mark in front of its keys either. Wherever one could begin, the
lexer notes the place; if a colon follows on the same line, the mark of a key is
put there. A place at the indentation of the current block must turn out to be a
key.

Where the text has a flaw, a mark that nothing can be read from there on stands in
the place of the tokens. It also takes the place of those tokens before it that
were not certain yet, because a key could have begun in front of them.

Anchors, tags, directives and scalars in blocks of their own are no part of the
configuration language: a document that uses them is refused. An alias could only
name an anchor, so it stands for nothing.

* `Token.ofExcerpt`: the tokens of a text.
-/

namespace Intcode.Yaml

/-- A mark or a scalar of a document. -/
inductive Token where
  | documentStart
  | documentEnd
  | blockSequenceStart
  | blockMappingStart
  | blockEnd
  | flowSequenceStart
  | flowSequenceEnd
  | flowMappingStart
  | flowMappingEnd
  | blockEntry
  | flowEntry
  | key
  | value
  | plain (text : String)
  | quoted (text : List Text.Glyph)
  /-- An asterisk and a name. -/
  | alias
  /-- Nothing can be read from here on. -/
  | stop (flaw : Flaw)
  deriving DecidableEq, Repr

/-- A place where a key may have begun. -/
structure PendingKey where
  /-- How many flow collections are open around it. -/
  flow : Nat
  /-- How many tokens stand before it. -/
  tokens : Nat
  /-- Must it be a key? -/
  required : Bool
  index : Nat
  line : Nat
  column : Nat
  deriving Repr

/-- What a lexer knows between two tokens. -/
structure Lexer where
  cursor : Cursor
  tokens : Array Token := #[]
  /-- How many flow collections are open. -/
  flow : Nat := 0
  /-- The column of the innermost block, and those of the blocks around it. -/
  indent : Int := -1
  outer : List Int := []
  /-- May a key begin here? -/
  keyAllowed : Bool := true
  /-- Places where keys may have begun, at most one for each number of open collections. -/
  pending : List PendingKey := []
  /-- Has the text ended? -/
  ended : Bool := false
  deriving Repr

namespace Lexer

/-- Adds a token. -/
def push (s : Lexer) (t : Token) : Lexer := { s with tokens := s.tokens.push t }

/-- Drops places that can no longer be keys: those on an earlier line or more than 1024 characters
back. Fails if one of them had to be a key. -/
def dropStale (s : Lexer) : Except Flaw Lexer :=
  let stale (k : PendingKey) : Bool :=
    k.line ≠ s.cursor.line || s.cursor.index - k.index > 1024
  if s.pending.any fun k => stale k && k.required then .error .malformed
  else .ok { s with pending := s.pending.filter fun k => !stale k }

/-- Gives up the place noted for the current number of open collections. -/
def dropPending (s : Lexer) : Except Flaw Lexer :=
  if s.pending.any fun k => k.flow = s.flow && k.required then .error .malformed
  else .ok { s with pending := s.pending.filter fun k => k.flow ≠ s.flow }

/-- Notes that a key may begin here. -/
def notePending (s : Lexer) : Except Flaw Lexer :=
  if s.keyAllowed then do
    let s ← s.dropPending
    let c := s.cursor
    let key : PendingKey :=
      { flow := s.flow, tokens := s.tokens.size, required := s.flow = 0 && s.indent = c.column,
        index := c.index, line := c.line, column := c.column }
    return { s with pending := key :: s.pending }
  else .ok s

/-- Ends the blocks that are indented by more than `column`. -/
def unwindFrom (column : Int) (s : Lexer) : List Int → Lexer
  | [] => { s with outer := [] }
  | i :: rest =>
    if s.indent > column then unwindFrom column { s.push .blockEnd with indent := i } rest
    else { s with outer := i :: rest }

/-- Ends the blocks that are indented by more than `column`, outside of flow collections. -/
def unwind (s : Lexer) (column : Int) : Lexer :=
  if s.flow > 0 then s else unwindFrom column s s.outer

/-- Starts a block at a column, with the mark `start` behind the first `place` tokens, unless the
current block is indented as much. -/
def indentTo (s : Lexer) (column : Nat) (place : Nat) (start : Token) : Lexer :=
  if s.indent < column then
    { s with
      outer := s.indent :: s.outer, indent := column
      tokens := s.tokens.insertIdxIfInBounds place start }
  else s

/-- Starts a block at the cursor. -/
def indentHere (s : Lexer) (start : Token) : Lexer :=
  s.indentTo s.cursor.column s.tokens.size start

/-- Past spaces, comments and line breaks. A key may begin on a new line. -/
def skipGaps : Nat → Lexer → Lexer
  | 0, s => s
  | n + 1, s =>
    let c := s.cursor.skipSpaces
    let c := if c.peek? 0 = some '#' then c.skip (c.rest.takeWhile fun ch => !isBreak ch).length else c
    if c.atBreak then
      skipGaps n { s with cursor := c.skipBreak, keyAllowed := s.keyAllowed || s.flow = 0 }
    else { s with cursor := c }

/-- Past a mark of so many characters, with its token added. -/
def mark (s : Lexer) (width : Nat) (t : Token) : Lexer :=
  { s.push t with cursor := s.cursor.skip width }

/-- The mark of a document ends all blocks. -/
def documentMark (s : Lexer) (t : Token) : Except Flaw Lexer := do
  let s ← (s.unwind (-1)).dropPending
  return { s.mark 3 t with keyAllowed := false }

/-- A bracket or brace that opens a flow collection. -/
def openFlow (s : Lexer) (t : Token) : Except Flaw Lexer := do
  let s ← s.notePending
  return { s.mark 1 t with flow := s.flow + 1, keyAllowed := true }

/-- A bracket or brace that closes a flow collection; one has to be open. -/
def closeFlow (s : Lexer) (t : Token) : Except Flaw Lexer := do
  if s.flow = 0 then .error .malformed
  else
    let s ← s.dropPending
    return { s.mark 1 t with flow := s.flow - 1, keyAllowed := false }

/-- A comma between the members of a flow collection. -/
def flowEntry (s : Lexer) : Except Flaw Lexer := do
  let s ← s.dropPending
  return { s.mark 1 .flowEntry with keyAllowed := true }

/-- The dash of a member of a block sequence. -/
def blockEntry (s : Lexer) : Except Flaw Lexer := do
  if s.flow = 0 && !s.keyAllowed then .error .malformed
  else
    let s := if s.flow = 0 then s.indentHere .blockSequenceStart else s
    let s ← s.dropPending
    return { s.mark 1 .blockEntry with keyAllowed := true }

/-- The question mark in front of a key. -/
def explicitKey (s : Lexer) : Except Flaw Lexer := do
  if s.flow = 0 && !s.keyAllowed then .error .malformed
  else
    let s := if s.flow = 0 then s.indentHere .blockMappingStart else s
    let s ← s.dropPending
    return { s.mark 1 .key with keyAllowed := s.flow = 0 }

/-- The colon in front of a value. If a place before it was noted, that is where its key begins. -/
def valueMark (s : Lexer) : Except Flaw Lexer := do
  match s.pending.find? (·.flow = s.flow) with
  | some k =>
    let s := { s with
      pending := s.pending.filter (·.flow ≠ s.flow)
      tokens := s.tokens.insertIdxIfInBounds k.tokens .key }
    let s := if s.flow = 0 then s.indentTo k.column k.tokens .blockMappingStart else s
    return { s.mark 1 .value with keyAllowed := false }
  | none =>
    if s.flow = 0 && !s.keyAllowed then .error .malformed
    else
      let s := if s.flow = 0 then s.indentHere .blockMappingStart else s
      let s ← s.dropPending
      return { s.mark 1 .value with keyAllowed := s.flow = 0 }

/-- A scalar between quotes. -/
def quotedScalar (s : Lexer) (double : Bool) : Except Flaw Lexer := do
  let s ← s.notePending
  let (text, c) ← readQuoted double (s.cursor.left + 1) s.cursor.next
  return { s.push (.quoted text) with cursor := c, keyAllowed := false }

/-- A plain scalar. A key may begin behind it if it ended at a line break. -/
def plainScalar (s : Lexer) : Except Flaw Lexer := do
  let s ← s.notePending
  let r := readPlain (s.flow > 0) (s.indent + 1) s.cursor.left ⟨[], s.cursor, false⟩
  return { s.push (.plain (String.ofList r.text)) with cursor := r.cursor, keyAllowed := r.broken }

/-- An asterisk and a name. -/
def aliasMark (s : Lexer) : Except Flaw Lexer := do
  let s ← s.notePending
  let name := s.cursor.next.rest.takeWhile fun c => c.isAlphanum || c = '-' || c = '_'
  let after := s.cursor.skip (name.length + 1)
  if name.isEmpty || !(after.gapAt 0 || (after.peek? 0).any "?:,]\x7d%@`".toList.contains) then
    .error .malformed
  else return { s.push .alias with cursor := after, keyAllowed := false }

/-- May a plain scalar begin at the cursor with this character? Marks may begin one only where they
could not be marks. -/
def startsPlain (s : Lexer) (c : Char) : Bool :=
  (!isGap c && !("-?:,[]\x7b\x7d#&*!|>'\"%@`".toList.contains c)) ||
    (!s.cursor.gapAt 1 && (c = '-' || (s.flow = 0 && (c = '?' || c = ':'))))

/-- Reads the token that begins with a character. -/
def readToken (s : Lexer) (c : Char) : Except Flaw Lexer :=
  let gapNext := s.cursor.gapAt 1
  if s.cursor.column = 0 && s.cursor.marks '-' then s.documentMark .documentStart
  else if s.cursor.column = 0 && s.cursor.marks '.' then s.documentMark .documentEnd
  else if s.cursor.column = 0 && c = '%' then .error .malformed
  else if c = '[' then s.openFlow .flowSequenceStart
  else if c = '\x7b' then s.openFlow .flowMappingStart
  else if c = ']' then s.closeFlow .flowSequenceEnd
  else if c = '\x7d' then s.closeFlow .flowMappingEnd
  else if c = ',' then s.flowEntry
  else if c = '-' && gapNext then s.blockEntry
  else if c = '?' && (s.flow > 0 || gapNext) then s.explicitKey
  else if c = ':' && (s.flow > 0 || gapNext) then s.valueMark
  else if c = '*' then s.aliasMark
  else if c = '\'' then s.quotedScalar false
  else if c = '"' then s.quotedScalar true
  else if s.startsPlain c then s.plainScalar
  else .error .malformed

/-- Goes past the gaps and the next token. At the end of the text all blocks end. Where something
stands behind the text, a token is known only if a character is left after it. -/
def advance (s : Lexer) (behind : Option Flaw) : Except Flaw Lexer := do
  let s ← (s.skipGaps (s.cursor.left + 1)).dropStale
  if behind.isSome && (s.cursor.rest.drop 1).isEmpty then .error .cut
  else
    let s := s.unwind s.cursor.column
    match s.cursor.peek? 0 with
    | none => do
      let s ← (s.unwind (-1)).dropPending
      return { s with ended := true }
    | some c => do
      let s ← s.readToken c
      if behind.isSome && s.cursor.rest.isEmpty then .error .cut else return s

/-- How many tokens are certain: those in front of all places where a key may have begun. -/
def certain (s : Lexer) : Nat := s.pending.foldl (fun n k => min n k.tokens) s.tokens.size

/-- The tokens that are certain, and the mark that nothing can be read behind them. A text that is
cut is flawed as what stands behind it. -/
def stopped (s : Lexer) (behind : Option Flaw) (flaw : Flaw) : List Token :=
  s.tokens.toList.take s.certain ++ [.stop (if flaw = .cut then behind.getD .malformed else flaw)]

/-- Reads tokens to the end of the text or to a flaw. -/
def run (behind : Option Flaw) : Nat → Lexer → List Token
  | 0, s => s.stopped behind .malformed
  | n + 1, s =>
    match s.dropStale with
    | .error flaw => s.stopped behind flaw
    | .ok s =>
      match s.advance behind with
      | .error flaw => s.stopped behind flaw
      | .ok s' => if s'.ended then s'.tokens.toList else run behind n s'

end Lexer

/-- The tokens of a text. A byte order mark may stand in front. -/
def Token.ofExcerpt (e : Excerpt) : List Token :=
  let start : Cursor := { rest := e.text }
  let start := if e.text.head? = some byteOrderMark then start.next else start
  Lexer.run e.behind (e.text.length + 1) { cursor := start }

end Intcode.Yaml
