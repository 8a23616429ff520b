/-!
# Reading UTF-8

Files are octets, and text is read from them in UTF-8. The reader goes through
the octets one at a time: between characters it expects a lead octet, and after
one it is owed continuation octets, the first of which lies within bounds that
rule out overlong forms, surrogates and numbers past U+10FFFF.

* `scan_append`: the octets of a text may be read in pieces.
-/

namespace Intcode.Text.Utf8

/-- Where the reader stands: between characters, or owed `more + 1` octets of a
character of which it has gathered `bits`, the next one within `low` and `high`. -/
inductive State where
  | between
  | owed (more bits low high : Nat)
  deriving DecidableEq, Repr

/-- Where the reader stands after the lead octet of a character of several octets. -/
def lead? (b : Nat) : Option State :=
  if b < 0xC2 then none
  else if b < 0xE0 then some (.owed 0 (b - 0xC0) 0x80 0xBF)
  else if b = 0xE0 then some (.owed 1 0 0xA0 0xBF)
  else if b = 0xED then some (.owed 1 0xD 0x80 0x9F)
  else if b < 0xF0 then some (.owed 1 (b - 0xE0) 0x80 0xBF)
  else if b = 0xF0 then some (.owed 2 0 0x90 0xBF)
  else if b < 0xF4 then some (.owed 2 (b - 0xF0) 0x80 0xBF)
  else if b = 0xF4 then some (.owed 2 4 0x80 0x8F)
  else none

/-- Reads octets from a state: the characters completed, and the state after them.
`none` once an octet rules the text out. -/
def scan : State → List Nat → Option (List Char × State)
  | st, [] => some ([], st)
  | .between, b :: bs =>
    if b < 0x80 then (scan .between bs).map fun r => (Char.ofNat b :: r.1, r.2)
    else (lead? b).bind fun st => scan st bs
  | .owed more bits low high, b :: bs =>
    if low ≤ b ∧ b ≤ high then
      match more with
      | 0 => (scan .between bs).map fun r => (Char.ofNat (bits * 64 + (b - 0x80)) :: r.1, r.2)
      | more + 1 => scan (.owed more (bits * 64 + (b - 0x80)) 0x80 0xBF) bs
    else none

/-- **Octets may be read in pieces.** -/
theorem scan_append (st : State) (as bs : List Nat) :
    scan st (as ++ bs) =
      (scan st as).bind fun r => (scan r.2 bs).map fun s => (r.1 ++ s.1, s.2) := by
  fun_induction scan st as with
  | case1 st => simp
  | case2 b as h ih =>
    simp only [List.cons_append, scan, h, if_true, ih]
    cases scan .between as <;> simp [Function.comp_def, Option.map_map]
  | case3 b as h ih =>
    simp only [List.cons_append, scan, h, if_false]
    cases hl : lead? b with
    | none => rfl
    | some st => exact ih st
  | case4 bits low high b as h ih =>
    simp only [List.cons_append, scan, h, if_true, and_self, ih]
    cases scan .between as <;> simp [Function.comp_def, Option.map_map]
  | case5 bits low high b as h more ih =>
    simp only [List.cons_append, scan, h, if_true, and_self, ih]
  | case6 more bits low high b as h =>
    simp [scan, h]

/-- Reads a whole text: its octets must end between characters. -/
def decode? (bs : List Nat) : Option (List Char) :=
  match scan .between bs with
  | some (cs, .between) => some cs
  | _ => none

end Intcode.Text.Utf8
