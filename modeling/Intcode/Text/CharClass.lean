/-!
# Character classes

A class of characters is a list of closed ranges of code points. The tables of
this folder are such lists, written in ascending order.

* `CharClass.mem_iff`: a class holds exactly the characters of its ranges.
-/

namespace Intcode.Text

/-- A class of characters: closed ranges of code points. -/
abbrev CharClass := List (Nat × Nat)

namespace CharClass

/-- Does the class hold the character? -/
def holds (cls : CharClass) (c : Char) : Bool :=
  cls.any fun r => r.1 ≤ c.toNat && c.toNat ≤ r.2

/-- **A class holds exactly the characters of its ranges.** -/
theorem mem_iff {cls : CharClass} {c : Char} :
    cls.holds c = true ↔ ∃ r ∈ cls, r.1 ≤ c.toNat ∧ c.toNat ≤ r.2 := by
  simp [holds]

/-- Number of code points in the class, when its ranges do not meet. -/
def size (cls : CharClass) : Nat :=
  cls.foldl (fun n r => n + (r.2 + 1 - r.1)) 0

/-- The ranges ascend and leave a gap between neighbours. -/
def ascending : CharClass → Bool
  | [] => true
  | [r] => r.1 ≤ r.2
  | r :: s :: rest => r.1 ≤ r.2 && r.2 + 1 < s.1 && ascending (s :: rest)

end CharClass

end Intcode.Text
