import Intcode.Binary64.Shortest
import Intcode.Text.Glyph
import Intcode.Timestamp

/-!
# Loose values

The values of a configuration, as they come before they are checked: null, truth
values, whole numbers, floating point numbers, texts, timestamps, lists and tables.
A table keeps its entries in the order in which their keys came first, and has each
key once.

* `Table.get?_insert`: what is entered under a text is found there, and what is
  found under other texts stays, whatever is entered.
-/

namespace Intcode

/-- A value without parts. Only such a value can be a key of a table. -/
inductive Scalar where
  | null
  | bool (b : Bool)
  | int (i : Int)
  | float (x : Binary64)
  | text (s : String)
  /-- A text that holds a lone surrogate. -/
  | ragged (s : List Text.Glyph)
  | timestamp (t : Timestamp)
  deriving DecidableEq, Inhabited, Repr

/-- A value as it comes in a configuration. -/
inductive Value where
  | scalar (s : Scalar)
  | list (items : List Value)
  | table (entries : List (Scalar × Value))
  deriving Inhabited, Repr

/-- The entries of a table in order. -/
abbrev Table := List (Scalar × Value)

namespace Scalar

/-- The text that glyphs make up. -/
def ofGlyphs (s : List Text.Glyph) : Scalar :=
  match Text.Glyph.chars? s with
  | some cs => .text (String.ofList cs)
  | none => .ragged s

/-- The whole number that a truth value or a whole number stands for. -/
def asInt? : Scalar → Option Int
  | bool b => some (if b then 1 else 0)
  | int i => some i
  | _ => none

/-- Do two scalars stand for the same key? Numbers and truth values do if they are equal as
numbers, whatever their kind. -/
def sameKey (a b : Scalar) : Bool :=
  match a, b with
  | timestamp s, timestamp t => s.same t
  | float x, float y => x.same y
  | float x, b => b.asInt?.any x.equalsInt
  | a, float y => a.asInt?.any y.equalsInt
  | a, b =>
    match a.asInt?, b.asInt? with
    | some i, some j => i = j
    | none, none => a = b
    | _, _ => false

/-- The text of a scalar on its own. A lone surrogate is shown as the character for what is none. -/
def plainText : Scalar → String
  | null => "None"
  | bool b => if b then "True" else "False"
  | int i => toString i
  | float x => x.text
  | text s => s
  | ragged s => String.ofList (s.map Text.Glyph.toChar)
  | timestamp t => t.text

/-- The text of a scalar inside of another value: texts are quoted. -/
def innerText : Scalar → String
  | text s => Text.quoted s
  | ragged s => Text.quotedGlyphs s
  | timestamp t => t.innerText
  | other => other.plainText

/-- The whole number that a scalar is, if it is one. -/
def ints : Scalar → List Int
  | int i => [i]
  | _ => []

/-- Is the scalar more than nothing? Null, false, zero and the empty text are nothing. -/
def truthy : Scalar → Bool
  | null => false
  | bool b => b
  | int i => i ≠ 0
  | float x => !x.isZero
  | text s => s ≠ ""
  | ragged s => !s.isEmpty
  | timestamp _ => true

end Scalar

namespace Table

/-- The value under a key. -/
def get? (t : Table) (key : Scalar) : Option Value :=
  (t.find? fun e => e.1.sameKey key).map (·.2)

/-- Enters a value under a key: in the place of the value that is there, or at the end. -/
def insert : Table → Scalar → Value → Table
  | [], key, v => [(key, v)]
  | (k, w) :: t, key, v => if k.sameKey key then (k, v) :: t else (k, w) :: insert t key v

/-- Enters all values of another table. -/
def update (t other : Table) : Table := other.foldl (fun t e => t.insert e.1 e.2) t

/-- The entries whose keys are not among the given texts. -/
def without (t : Table) (keys : List String) : Table :=
  t.filter fun e => !keys.any fun k => e.1.sameKey (.text k)

end Table

@[simp] theorem Scalar.sameKey_text (a : Scalar) (s : String) :
    a.sameKey (.text s) = decide (a = .text s) := by
  cases a <;> simp [sameKey, asInt?]

@[simp] theorem Scalar.text_sameKey (s : String) (b : Scalar) :
    (Scalar.text s).sameKey b = decide (b = .text s) := by
  cases b <;> simp [sameKey, asInt?, eq_comm]

/-- **What is entered under a text is found there,** and what is found under other texts stays. -/
theorem Table.get?_insert (t : Table) (key : Scalar) (v : Value) (name : String) :
    (t.insert key v).get? (.text name) =
      if key = .text name then some v else t.get? (.text name) := by
  induction t with
  | nil => by_cases h : key = .text name <;> simp [insert, get?, h]
  | cons e t ih =>
    obtain ⟨k, w⟩ := e
    unfold insert
    by_cases hk : k = .text name
    · subst hk
      by_cases h : key = .text name
      · simp [get?, h]
      · simp [get?, h]
    · by_cases hsame : k.sameKey key = true
      · have h : key ≠ .text name := by
          rintro rfl
          exact hk (by simpa using hsame)
        simp [get?, hsame, hk, h]
      · simpa [get?, hsame, hk] using ih

namespace Value

/-- Null. -/
def null : Value := .scalar .null

/-- A truth value. -/
def bool (b : Bool) : Value := .scalar (.bool b)

/-- A whole number. -/
def int (i : Int) : Value := .scalar (.int i)

/-- A text. -/
def text (s : String) : Value := .scalar (.text s)

/-- Is the value more than nothing? An empty list and an empty table are nothing. -/
def truthy : Value → Bool
  | .scalar s => s.truthy
  | .list items => !items.isEmpty
  | .table entries => !entries.isEmpty

mutual

/-- The text of a value inside of another value. -/
def innerText : Value → String
  | .scalar s => s.innerText
  | .list items => "[" ++ ", ".intercalate (itemTexts items) ++ "]"
  | .table entries => "\x7b" ++ ", ".intercalate (entryTexts entries) ++ "\x7d"

/-- The texts of the members of a list. -/
def itemTexts : List Value → List String
  | [] => []
  | v :: rest => innerText v :: itemTexts rest

/-- The texts of the entries of a table. -/
def entryTexts : List (Scalar × Value) → List String
  | [] => []
  | (k, v) :: rest => (k.innerText ++ ": " ++ innerText v) :: entryTexts rest

end

/-- The text of a value on its own: a text is itself. -/
def plainText : Value → String
  | .scalar s => s.plainText
  | v => v.innerText

mutual

/-- The whole numbers in a value. -/
def ints : Value → List Int
  | .scalar s => s.ints
  | .list items => itemInts items
  | .table entries => entryInts entries

/-- The whole numbers in the members of a list. -/
def itemInts : List Value → List Int
  | [] => []
  | v :: rest => ints v ++ itemInts rest

/-- The whole numbers in the entries of a table. -/
def entryInts : List (Scalar × Value) → List Int
  | [] => []
  | (k, v) :: rest => k.ints ++ ints v ++ entryInts rest

end

/-- The name of the kind of a value. -/
def kindName : Value → String
  | .scalar .null => "NoneType"
  | .scalar (.bool _) => "bool"
  | .scalar (.int _) => "int"
  | .scalar (.float _) => "float"
  | .scalar (.text _) | .scalar (.ragged _) => "str"
  | .scalar (.timestamp t) => t.kindName
  | .list _ => "list"
  | .table _ => "dict"

end Value

end Intcode
