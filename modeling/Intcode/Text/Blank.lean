import Intcode.Text.CharClass

/-!
# Blank characters and trimming

The blank characters are the white space of Unicode 14 together with the four
separators U+001C to U+001F. Program images and input lines are trimmed of them
before they are read.

* `trim_eq_self`: a text that neither starts nor ends in a blank is left alone.
* `trim_append_blanks`: blanks behind a text are trimmed off.
-/

namespace Intcode.Text

/-- The blank characters of Unicode 14. -/
def blanks : CharClass :=
  [(0x09, 0x0D), (0x1C, 0x20), (0x85, 0x85), (0xA0, 0xA0), (0x1680, 0x1680), (0x2000, 0x200A),
   (0x2028, 0x2029), (0x202F, 0x202F), (0x205F, 0x205F), (0x3000, 0x3000)]

example : blanks.ascending = true ∧ blanks.size = 29 := by decide

/-- Is the character blank? -/
def isBlank (c : Char) : Bool := blanks.holds c

/-- The blank characters of ASCII that surround a number: space, tab, line feed, vertical tab, form
feed and carriage return. -/
def isPlainBlank (c : Char) : Bool :=
  c = ' ' || (0x09 ≤ c.toNat && c.toNat ≤ 0x0D)

/-- Drops the blanks at the end. -/
def trimRight (s : List Char) : List Char := (s.reverse.dropWhile isBlank).reverse

/-- Drops the blanks at both ends. -/
def trim (s : List Char) : List Char := trimRight (s.dropWhile isBlank)

/-- **A text that neither starts nor ends in a blank is left alone.** -/
theorem trim_eq_self {s : List Char} (hd : ∀ c ∈ s.head?, isBlank c = false)
    (hl : ∀ c ∈ s.getLast?, isBlank c = false) : trim s = s := by
  have front : s.dropWhile isBlank = s := by
    cases s with
    | nil => rfl
    | cons c r => simp [hd c rfl]
  have back : s.reverse.dropWhile isBlank = s.reverse := by
    cases hr : s.reverse with
    | nil => rfl
    | cons c r =>
      have : s.getLast? = some c := by simp [List.getLast?_eq_head?_reverse, hr]
      simp [hl c this]
  rw [trim, trimRight, front, back, List.reverse_reverse]

/-- Blanks behind a text are trimmed off. -/
theorem trim_append_blanks (s : List Char) {v : List Char} (hv : ∀ c ∈ v, isBlank c = true) :
    trim (s ++ v) = trim s := by
  have hnone : v.dropWhile isBlank = [] := by
    have hall : (v ++ []).dropWhile isBlank = [] := List.dropWhile_append_of_pos hv
    rwa [List.append_nil] at hall
  have hback : ∀ r : List Char, trimRight (r ++ v) = trimRight r := by
    intro r
    rw [trimRight, trimRight, List.reverse_append,
      List.dropWhile_append_of_pos fun c hc => hv c (List.mem_reverse.1 hc)]
  rw [trim, trim, List.dropWhile_append]
  split
  · next hempty => rw [hnone, List.isEmpty_iff.1 hempty]
  · exact hback _

end Intcode.Text
