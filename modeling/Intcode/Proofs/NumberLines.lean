import Mathlib.Data.List.Forall2
import Intcode.Channel.Terminal

/-!
# Texts of numbers

A text holds a list of words if each of its lines, blanks around it aside, is the
written form of one of them. What a terminal shows when numbers are written to it is
such a text.

* `Numeral.toString_inj`: numbers that are written alike are equal.
* `flatten_lines`: the lines of a text make it up.
* `holds_written`: numbers written one a line are read back, line by line.
-/

namespace Intcode

namespace Numeral

/-- A written number is made up of digits, with a minus in front if it is negative. -/
theorem mem_toString {x : Int} {c : Char} (h : c ∈ (toString x).toList) :
    c = '-' ∨ c.isDigit = true := by
  rw [toList_toString_int, List.mem_append] at h
  rcases h with h | h
  · split at h
    · exact .inl (List.mem_singleton.1 h)
    · cases h
  · exact .inr (Nat.isDigit_of_mem_toDigits (by decide) (by decide) h)

theorem toString_ne_nil (x : Int) : (toString x).toList ≠ [] := by
  rw [toList_toString_int]
  exact List.append_ne_nil_of_right_ne_nil _ Nat.toDigits_ne_nil

/-- **Numbers that are written alike are equal.** -/
theorem toString_inj {x y : Int} : (toString x).toList = (toString y).toList ↔ x = y := by
  refine ⟨?_, fun h => by rw [h]⟩
  intro h
  have hminus : ∀ n, '-' ∉ Nat.toDigits 10 n := fun n hn =>
    absurd (Nat.isDigit_of_mem_toDigits (by decide) (by decide) hn) (by decide)
  rw [toList_toString_int, toList_toString_int] at h
  -- the sign is told by the minus, which is no digit
  have hsign : x < 0 ↔ y < 0 := by
    have hmem : ∀ v : Int, '-' ∈ (if v < 0 then ['-'] else []) ++ Nat.toDigits 10 v.natAbs ↔ v < 0 := by
      intro v
      by_cases hv : v < 0 <;> simp [hv, hminus]
    rw [← hmem x, h, hmem y]
  have hdigits : Nat.toDigits 10 x.natAbs = Nat.toDigits 10 y.natAbs := by
    simp only [hsign] at h
    exact List.append_cancel_left h
  have habs : x.natAbs = y.natAbs := by
    rw [← readDigits_toDigits x.natAbs, hdigits, readDigits_toDigits]
  omega

end Numeral

namespace Text

@[simp] theorem lines_nil : lines [] = [] := by
  unfold lines; simp

theorem lines_of_ne_nil {s : List Char} (h : s ≠ []) : lines s = takeLine s :: lines (dropLine s) := by
  rw [lines, dif_neg h]

theorem lines_dropLine (s : List Char) : lines (dropLine s) = (lines s).tail := by
  by_cases h : s = []
  · subst h
    simp [dropLine]
  · rw [lines_of_ne_nil h, List.tail_cons]

/-- **The lines of a text make it up.** -/
theorem flatten_lines (s : List Char) : (lines s).flatten = s := by
  fun_induction lines s with
  | case1 => rfl
  | case2 s h ih => rw [List.flatten_cons, ih, takeLine_append_dropLine]

/-- A line ends at its first line feed. -/
theorem takeLine_append {w : List Char} (hw : '\n' ∉ w) (s : List Char) :
    takeLine (w ++ '\n' :: s) = w ++ ['\n'] ∧ dropLine (w ++ '\n' :: s) = s := by
  induction w with
  | nil => exact ⟨rfl, rfl⟩
  | cons c w ih =>
    have hc : c ≠ '\n' := by
      intro h; exact hw (h ▸ List.mem_cons_self)
    obtain ⟨h1, h2⟩ := ih fun h => hw (List.mem_cons_of_mem _ h)
    simp [takeLine, dropLine, hc, h1, h2]

theorem lines_append {w : List Char} (hw : '\n' ∉ w) (s : List Char) :
    lines (w ++ '\n' :: s) = (w ++ ['\n']) :: lines s := by
  rw [lines_of_ne_nil (by simp), (takeLine_append hw s).1, (takeLine_append hw s).2]

/-- **Blanks around a text without blanks are trimmed off.** -/
theorem trim_append {u w v : List Char} (hu : ∀ c ∈ u, isBlank c = true)
    (hw : ∀ c ∈ w, isBlank c = false) (hv : ∀ c ∈ v, isBlank c = true) : trim (u ++ (w ++ v)) = w := by
  have hfront : trim (u ++ (w ++ v)) = trim (w ++ v) := by
    rw [trim, trim, List.dropWhile_append_of_pos hu]
  rw [hfront, trim_append_blanks w hv]
  exact trim_eq_self (fun c hc => hw c (List.mem_of_mem_head? hc))
    fun c hc => hw c (List.mem_of_getLast? hc)

/-- Where the digits are among the characters. -/
theorem toNat_of_isDigit {c : Char} (h : c.isDigit = true) : 48 ≤ c.toNat ∧ c.toNat ≤ 57 := by
  simp only [Char.isDigit, Bool.and_eq_true, decide_eq_true_eq, ge_iff_le,
    UInt32.le_iff_toNat_le] at h
  exact h

/-- A digit is not blank. -/
theorem isBlank_of_isDigit {c : Char} (h : c.isDigit = true) : isBlank c = false := by
  obtain ⟨hlo, hhi⟩ := toNat_of_isDigit h
  rw [← Bool.not_eq_true, isBlank, CharClass.mem_iff]
  simp only [blanks, List.mem_cons, List.not_mem_nil, or_false]
  rintro ⟨r, hr, h1, h2⟩
  rcases hr with rfl | rfl | rfl | rfl | rfl | rfl | rfl | rfl | rfl | rfl <;>
    simp only at h1 h2 <;> omega

/-- The written form of a number has no blanks in it. -/
theorem isBlank_of_mem_toString {v : Int} {c : Char} (h : c ∈ (toString v).toList) :
    isBlank c = false := by
  rcases Numeral.mem_toString h with rfl | h
  · decide
  · exact isBlank_of_isDigit h

end Text

namespace Terminal

/-- The lines of a text are the words `vs`, one a line. -/
def Holds (text : List Char) (vs : List Int) : Prop :=
  List.Forall₂ (fun line v => Word.parse (String.ofList (Text.trim line)) = .ok v) (Text.lines text) vs

/-- What is shown of numbers that are written one after the other. -/
def written (vs : List Int) : String := String.join (vs.map fun v => toString v ++ "\n")

theorem toList_written_cons (v : Int) (vs : List Int) :
    (written (v :: vs)).toList = (toString v).toList ++ '\n' :: (written vs).toList := by
  simp [written]

/-- **Words that are written one a line are read back**, line by line. -/
theorem holds_written {vs : List Int} (h : ∀ v ∈ vs, Word.InRange v) :
    Holds (written vs).toList vs := by
  induction vs with
  | nil => simp [Holds, written]
  | cons v vs ih =>
    -- a line feed is a blank, so the number ends where its line does
    have hnl : '\n' ∉ (toString v).toList := by
      intro hmem
      exact absurd (Text.isBlank_of_mem_toString hmem) (by decide)
    rw [Holds, toList_written_cons, Text.lines_append hnl]
    refine .cons ?_ (ih fun w hw => h w (List.mem_cons_of_mem _ hw))
    have hblank : ∀ c ∈ ['\n'], Text.isBlank c = true := List.forall_mem_singleton.2 (by decide)
    have htrim : Text.trim ((toString v).toList ++ ['\n']) = (toString v).toList :=
      Text.trim_append (u := []) (by simp) (fun c hc => Text.isBlank_of_mem_toString hc) hblank
    rw [htrim, String.ofList_toList]
    exact Word.parse_toString (h v List.mem_cons_self)

end Terminal

end Intcode
