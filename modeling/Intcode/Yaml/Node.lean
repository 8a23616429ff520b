import Intcode.Yaml.Token

/-!
# Nodes of a document

The tree that the tokens of a document stand for: scalars, sequences and mappings.
What is left out, such as a value behind a colon or a key in front of one, is an
empty plain scalar.

* `Node.ofTokens`: the node of a text that holds one document, or no node if the
  text is empty.
-/

namespace Intcode.Yaml

/-- A node of a document. -/
inductive Node where
  | plain (text : String)
  | quoted (text : List Text.Glyph)
  | sequence (items : List Node)
  | mapping (entries : List (Node × Node))
  /-- A mapping into which something is to be merged that cannot be. -/
  | unmergeable
  deriving Inhabited, Repr

namespace Node

/-- What stands where nothing is written. -/
def empty : Node := .plain ""

/-- What a reader makes of tokens: a result and the tokens left. -/
abbrev Reader (α : Type) := List Token → Except Flaw (α × List Token)

/-- What is wrong with tokens from which nothing can be read. -/
def stuck {α : Type} : List Token → Except Flaw α
  | .stop flaw :: _ => .error flaw
  | _ => .error .malformed

/-- Where a node may stand. -/
inductive Context where
  /-- In a flow collection: blocks may not begin. -/
  | flow
  /-- In a block. -/
  | block
  /-- In a block mapping: a sequence may stand without indentation of its own. -/
  | mappingValue
  deriving DecidableEq, Repr

/-- Is there a token, and is it one of the given ones? -/
def nextIn (ts : List Token) (marks : List Token) : Bool := ts.head?.any marks.contains

mutual

/-- Reads a node. Each reader takes a bound on the number of readers below it. -/
def read : Nat → Context → Reader Node
  | 0, _, ts => stuck ts
  | n + 1, context, ts =>
    match ts with
    | .plain text :: ts => .ok (.plain text, ts)
    | .quoted text :: ts => .ok (.quoted text, ts)
    | .flowSequenceStart :: ts => (flowItems n true ts).map fun r => (.sequence r.1, r.2)
    | .flowMappingStart :: ts => (flowEntries n true ts).map fun r => (.mapping r.1, r.2)
    | .blockEntry :: _ =>
      if context = .mappingValue then (looseItems n ts).map fun r => (.sequence r.1, r.2) else stuck ts
    | .blockSequenceStart :: ts =>
      if context = .flow then .error .malformed else (blockItems n ts).map fun r => (.sequence r.1, r.2)
    | .blockMappingStart :: ts =>
      if context = .flow then .error .malformed else (blockEntries n ts).map fun r => (.mapping r.1, r.2)
    | ts => stuck ts

/-- Reads a node, or an empty one in front of one of the given tokens. -/
def readUnless : Nat → Context → List Token → Reader Node
  | 0, _, _, ts => stuck ts
  | n + 1, context, marks, ts =>
    if nextIn ts marks then .ok (.empty, ts) else read n context ts

/-- The members of a block sequence, up to the end of the block. -/
def blockItems : Nat → Reader (List Node)
  | 0, ts => stuck ts
  | n + 1, ts =>
    match ts with
    | .blockEntry :: ts => do
      let (item, ts) ← readUnless n .block [.blockEntry, .blockEnd] ts
      let (items, ts) ← blockItems n ts
      return (item :: items, ts)
    | .blockEnd :: ts => .ok ([], ts)
    | ts => stuck ts

/-- The members of a sequence that has no indentation of its own, up to the first token that is not
a dash. -/
def looseItems : Nat → Reader (List Node)
  | 0, ts => stuck ts
  | n + 1, ts =>
    match ts with
    | .blockEntry :: ts => do
      let (item, ts) ← readUnless n .block [.blockEntry, .key, .value, .blockEnd] ts
      let (items, ts) ← looseItems n ts
      return (item :: items, ts)
    | ts => .ok ([], ts)

/-- The value behind a colon in a block mapping, or an empty one where there is no colon. -/
def blockValue : Nat → Reader Node
  | 0, ts => stuck ts
  | n + 1, ts =>
    match ts with
    | .value :: ts => readUnless n .mappingValue [.key, .value, .blockEnd] ts
    | ts => .ok (.empty, ts)

/-- The entries of a block mapping, up to the end of the block. -/
def blockEntries : Nat → Reader (List (Node × Node))
  | 0, ts => stuck ts
  | n + 1, ts =>
    match ts with
    | .key :: ts => do
      let (k, ts) ← readUnless n .mappingValue [.key, .value, .blockEnd] ts
      let (v, ts) ← blockValue n ts
      let (entries, ts) ← blockEntries n ts
      return ((k, v) :: entries, ts)
    | .blockEnd :: ts => .ok ([], ts)
    | ts => stuck ts

/-- The value behind a colon in a flow collection that `close` closes, or an empty one. -/
def flowValue : Nat → Token → Reader Node
  | 0, _, ts => stuck ts
  | n + 1, close, ts =>
    match ts with
    | .value :: ts => readUnless n .flow [.flowEntry, close] ts
    | ts => .ok (.empty, ts)

/-- The members of a flow sequence, up to its bracket. A key in front of a member makes it a mapping
of one entry. -/
def flowItems : Nat → Bool → Reader (List Node)
  | 0, _, ts => stuck ts
  | n + 1, first, ts =>
    match ts, first with
    | .flowSequenceEnd :: ts, _ => .ok ([], ts)
    | ts, true => flowItem n ts
    | .flowEntry :: ts, false => flowItem n ts
    | ts, false => stuck ts

/-- A member of a flow sequence and those after it; or the bracket behind a comma. -/
def flowItem : Nat → Reader (List Node)
  | 0, ts => stuck ts
  | n + 1, ts =>
    match ts with
    | .flowSequenceEnd :: ts => .ok ([], ts)
    | .key :: ts => do
      let (k, ts) ← readUnless n .flow [.value, .flowEntry, .flowSequenceEnd] ts
      let (v, ts) ← flowValue n .flowSequenceEnd ts
      let (items, ts) ← flowItems n false ts
      return (.mapping [(k, v)] :: items, ts)
    | ts => do
      let (item, ts) ← read n .flow ts
      let (items, ts) ← flowItems n false ts
      return (item :: items, ts)

/-- The entries of a flow mapping, up to its brace. -/
def flowEntries : Nat → Bool → Reader (List (Node × Node))
  | 0, _, ts => stuck ts
  | n + 1, first, ts =>
    match ts, first with
    | .flowMappingEnd :: ts, _ => .ok ([], ts)
    | ts, true => flowMember n ts
    | .flowEntry :: ts, false => flowMember n ts
    | ts, false => stuck ts

/-- An entry of a flow mapping and those after it; or the brace behind a comma. -/
def flowMember : Nat → Reader (List (Node × Node))
  | 0, ts => stuck ts
  | n + 1, ts =>
    match ts with
    | .flowMappingEnd :: ts => .ok ([], ts)
    | .key :: ts => do
      let (k, ts) ← readUnless n .flow [.value, .flowEntry, .flowMappingEnd] ts
      let (v, ts) ← flowValue n .flowMappingEnd ts
      let (entries, ts) ← flowEntries n false ts
      return ((k, v) :: entries, ts)
    | ts => do
      let (k, ts) ← read n .flow ts
      let (entries, ts) ← flowEntries n false ts
      return ((k, .empty) :: entries, ts)

end

/-- How many readers tokens can keep busy: each token at most four. -/
def bound (ts : List Token) : Nat := 4 * ts.length + 4

/-- Reads a document. Behind the mark of its start it may be empty. -/
def readDocument : Reader Node
  | .documentStart :: ts =>
    if ts.isEmpty || nextIn ts [.documentStart, .documentEnd] then .ok (.empty, ts)
    else read (bound ts) .block ts
  | ts => read (bound ts) .block ts

/-- The node of a document, or no node if there are no tokens. Nothing may follow a document but
marks of its end. -/
def ofTokens (ts : List Token) : Except Flaw (Option Node) :=
  if ts.isEmpty then .ok none
  else do
    let (node, ts) ← readDocument ts
    match ts.dropWhile (· = .documentEnd) with
    | [] => return some node
    | ts => stuck ts

end Node

end Intcode.Yaml
