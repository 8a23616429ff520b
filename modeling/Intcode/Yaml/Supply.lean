import Intcode.Files
import Intcode.Yaml.Cursor
import Intcode.Yaml.Flaw

/-!
# Taking text from a file

The text of a document is taken from its file page by page, and no page is taken
before the one in front of it has been read. So a flaw of the document counts before
one of a later page, and an excerpt keeps both: the text in front of the first page
that cannot be taken, and what is wrong with that page.

A page is filled from blocks of octets, each of which has to be text as a whole.

* `Supply.octets_refill`: a block that was read is behind the supply.
* `Supply.excerpt`: the text of a file as far as it can be taken.
-/

namespace Intcode.Yaml

/-- A file from which text is taken bit by bit. -/
structure Supply where
  /-- What was not read yet. -/
  octets : List Nat
  state : Text.Utf8.State := .between
  /-- A carriage return at the end of what was read: it may yet be followed by a line feed. -/
  held : List Char := []
  /-- What was read and not taken yet. -/
  ready : List Char := []
  /-- The numbers of octets and of characters of the last block. -/
  last : Nat × Nat := (0, 0)
  deriving Repr

namespace Supply

/-- How many octets are read where so many characters are missing: a block, or as many as they would
take up in the last block. -/
def demand (s : Supply) (missing : Nat) : Nat :=
  max blockSize (max missing (s.last.1 * missing / s.last.2))

/-- Reads a block. -/
def refill (s : Supply) (missing : Nat) : Except Flaw Supply :=
  let block := s.octets.take (s.demand missing)
  match Text.Utf8.scan s.state block with
  | none => .error .notUtf8
  | some (cs, state) =>
    let text := s.held ++ cs
    let known := Text.unifyNewlines (settled text)
    .ok {
      octets := s.octets.drop (s.demand missing), state, held := text.drop (settled text).length
      ready := s.ready ++ known, last := (block.length, known.length) }

/-- **A block that was read is behind the supply.** -/
theorem octets_refill {s t : Supply} {missing : Nat} (h : s.refill missing = .ok t) :
    t.octets = s.octets.drop (s.demand missing) := by
  unfold refill at h
  dsimp only at h
  split at h
  · simp at h
  · simp only [Except.ok.injEq] at h
    rw [← h]

/-- Ends the text. It may not end inside of a character. -/
def finish (s : Supply) : Except Flaw Supply :=
  if s.state = .between then
    .ok { s with held := [], ready := s.ready ++ Text.unifyNewlines s.held }
  else .error .notUtf8

/-- Takes characters that were read. -/
def split (s : Supply) (n : Nat) : List Char × Supply :=
  (s.ready.take n, { s with ready := s.ready.drop n })

/-- Takes so many characters, and fewer only at the end of the text. -/
def take (n : Nat) (s : Supply) : Except Flaw (List Char × Supply) :=
  if n ≤ s.ready.length then .ok (s.split n)
  else if _h : s.octets = [] then s.finish.map (·.split n)
  else
    match _e : s.refill (n - s.ready.length) with
    | .error flaw => .error flaw
    | .ok t => take n t
termination_by s.octets.length
decreasing_by
  have some_left : 0 < s.octets.length := List.length_pos_iff.2 (by assumption)
  have some_read : 0 < s.demand (n - s.ready.length) := by
    simp only [demand, blockSize]
    omega
  rw [octets_refill (by assumption), List.length_drop]
  omega

end Supply

/-- The text of a file as far as it can be taken. -/
structure Excerpt where
  text : List Char
  /-- What is wrong with what follows, if something follows. -/
  behind : Option Flaw := none
  deriving Repr

namespace Supply

/-- A page has this many characters; the first one has twice as many. -/
def pageSize : Nat := 4096

/-- Takes page after page behind a first one, up to an empty one or one that cannot be taken. -/
def pages : Nat → Except Flaw (List Char × Supply) → Excerpt
  | _, .error flaw => { text := [], behind := some flaw }
  | 0, .ok _ => { text := [] }
  | n + 1, .ok (page, s) =>
    if page.isEmpty then { text := [] }
    else if page.all isAllowed then
      let more := pages n (s.take pageSize)
      { more with text := page ++ more.text }
    else { text := [], behind := some .malformed }

/-- Takes the first page. -/
def firstPage (s : Supply) : Except Flaw (List Char × Supply) := do
  let (upper, s) ← s.take pageSize
  let (lower, s) ← s.take pageSize
  return (upper ++ lower, s)

/-- **The text of a file as far as it can be taken.** -/
def excerpt (octets : List UInt8) : Excerpt :=
  pages (octets.length + 1) (firstPage { octets := octets.map UInt8.toNat })

end Supply

end Intcode.Yaml
