/-!
# Lines of a text

A line of a text runs up to and including the first line feed, or to the end.
Files and terminals may also end a line by a carriage return, alone or before a
line feed: `unifyNewlines` turns each of these into one line feed.

* `takeLine_append_dropLine`: a line and what follows it make up the text.
* `length_dropLine_lt`: taking a line off a text that is not empty shortens it.
-/

namespace Intcode.Text

/-- The first line, with its line feed if it has one. -/
def takeLine : List Char → List Char
  | [] => []
  | c :: s => if c = '\n' then [c] else c :: takeLine s

/-- What follows the first line. -/
def dropLine : List Char → List Char
  | [] => []
  | c :: s => if c = '\n' then s else dropLine s

/-- **A line and what follows it make up the text.** -/
theorem takeLine_append_dropLine (s : List Char) : takeLine s ++ dropLine s = s := by
  induction s with
  | nil => rfl
  | cons c s ih => by_cases h : c = '\n' <;> simp [takeLine, dropLine, h, ih]

theorem takeLine_ne_nil {s : List Char} (h : s ≠ []) : takeLine s ≠ [] := by
  cases s with
  | nil => exact absurd rfl h
  | cons c s => by_cases hc : c = '\n' <;> simp [takeLine, hc]

/-- Taking a line off a text that is not empty shortens it. -/
theorem length_dropLine_lt {s : List Char} (h : s ≠ []) : (dropLine s).length < s.length := by
  have happ := congrArg List.length (takeLine_append_dropLine s)
  have hpos := List.length_pos_iff.2 (takeLine_ne_nil h)
  simp only [List.length_append] at happ
  omega

/-- The lines of a text, each with its line feed. -/
def lines (s : List Char) : List (List Char) :=
  if _h : s = [] then [] else takeLine s :: lines (dropLine s)
termination_by s.length
decreasing_by exact length_dropLine_lt (by assumption)

/-- Every carriage return, alone or with the line feed after it, becomes a line feed. -/
def unifyNewlines : List Char → List Char
  | [] => []
  | '\r' :: '\n' :: s => '\n' :: unifyNewlines s
  | c :: s => (if c = '\r' then '\n' else c) :: unifyNewlines s

end Intcode.Text
