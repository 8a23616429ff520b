import Intcode.Yaml.Node
import Intcode.Yaml.Plain

/-!
# Documents

The value that the text of a document stands for. A text that holds no document
stands for null. Keys are scalars; of entries with the same key the last one counts.

An entry with the key `<<` merges the entries of its value, a mapping or a sequence
of mappings, into the mapping around it. They stand in front of the entries of that
mapping, which so count before them, as do those of earlier members of a sequence.

A document may have several errors. The one that counts is the one at the least
depth, and the first one of those.

* `Yaml.load`: the value of a text.
-/

namespace Intcode.Yaml

/-- Why a text stands for no value. -/
inductive DocumentError where
  /-- The text is no document. -/
  | flaw (cause : Flaw)
  /-- A scalar of the document has no value. -/
  | scalar (cause : ScalarError)
  deriving DecidableEq, Repr

/-! ## Merging -/

namespace Node

/-- Is the node a mark that something is merged? -/
def isMergeMark : Node → Bool
  | plain text => text = "<<"
  | _ => false

/-- The entries of a mapping. -/
def entries? : Node → Option (List (Node × Node))
  | mapping entries => some entries
  | _ => none

/-- The entries that a node gives to a mapping into which it is merged. -/
def gain? : Node → Option (List (Node × Node))
  | mapping entries => some entries
  | sequence items => (items.mapM entries?).map fun parts => parts.reverse.flatten
  | _ => none

mutual

/-- The node without merges: what they give are entries like others. -/
def merged : Node → Node
  | sequence items => .sequence (mergedItems items)
  | mapping entries =>
    match mergedEntries entries with
    | some (gained, own) => .mapping (gained ++ own)
    | none => .unmergeable
  | node => node

/-- The members of a sequence without merges. -/
def mergedItems : List Node → List Node
  | [] => []
  | item :: items => merged item :: mergedItems items

/-- The entries that merges give, and the others, all without merges. -/
def mergedEntries : List (Node × Node) → Option (List (Node × Node) × List (Node × Node))
  | [] => some ([], [])
  | (k, v) :: entries => do
    let (gained, own) ← mergedEntries entries
    if k.isMergeMark then return ((← (merged v).gain?) ++ gained, own)
    else return (gained, (k, merged v) :: own)

end

end Node

/-! ## Values -/

/-- An error, and the depth in the document at which it is met. -/
structure Objection where
  depth : Nat
  cause : DocumentError
  deriving DecidableEq, Repr

/-- Two results together. Of two errors the one at the lesser depth counts, else the first one. -/
def together {α β : Type} : Except Objection α → Except Objection β → Except Objection (α × β)
  | .ok a, .ok b => .ok (a, b)
  | .ok _, .error f => .error f
  | .error e, .ok _ => .error e
  | .error e, .error f => .error (if f.depth < e.depth then f else e)

/-- The value of a plain scalar at a depth. -/
def plainValue (depth : Nat) (text : String) : Except Objection Scalar :=
  (Plain.value text).mapError fun cause =>
    ⟨depth, if cause = .reserved then .flaw .malformed else .scalar cause⟩

/-- The value of a key. The mark of a default value is a text there. -/
def keyValue (depth : Nat) : Node → Except Objection Scalar
  | .plain text => if text = "=" then .ok (.text text) else plainValue depth text
  | .quoted text => .ok (.ofGlyphs text)
  | _ => .error ⟨depth, .flaw .malformed⟩

mutual

/-- The value of a node at a depth. -/
def nodeValue (depth : Nat) : Node → Except Objection Value
  | .plain text => (plainValue depth text).map .scalar
  | .quoted text => .ok (.scalar (.ofGlyphs text))
  | .sequence items => (itemValues (depth + 1) items).map .list
  | .mapping entries => (entryValues (depth + 1) entries).map fun es => .table (Table.update [] es)
  | .unmergeable => .error ⟨depth + 1, .flaw .malformed⟩

/-- The values of the members of a sequence. -/
def itemValues (depth : Nat) : List Node → Except Objection (List Value)
  | [] => .ok []
  | item :: items =>
    (together (nodeValue depth item) (itemValues depth items)).map fun r => r.1 :: r.2

/-- The keys and values of a mapping, entry by entry. -/
def entryValues (depth : Nat) : List (Node × Node) → Except Objection (List (Scalar × Value))
  | [] => .ok []
  | (k, v) :: entries =>
    (together (together (keyValue depth k) (nodeValue depth v)) (entryValues depth entries)).map
      fun r => r.1 :: r.2

end

/-- The value of the text of a document. -/
def load (e : Excerpt) : Except DocumentError Value :=
  match Node.ofTokens (Token.ofExcerpt e) with
  | .error flaw => .error (.flaw flaw)
  | .ok none => .ok .null
  | .ok (some node) => (nodeValue 0 node.merged).mapError (·.cause)

end Intcode.Yaml
