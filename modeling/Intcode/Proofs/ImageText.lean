import Mathlib.Data.List.Forall2
import Mathlib.Data.Nat.Digits.Defs
import Intcode.Image
import Intcode.Proofs.NumberLines

/-!
# Texts of images

The texts that are read as an image, said without the reader: tokens with commas between
them, each a sign or none and digits, and blanks around the whole.

* `Word.parse_eq_ok_iff`: which tokens are read as which words.
* `Image.splitOn_eq_iff`: a line splits into the tokens that it is joined from.
* `Image.parseWords_eq_ok_iff`, `Image.parseWords_eq_error_iff`: all tokens are read, or the
  first that spells no word is refused.
* `Image.parse_grammar`: what is read as an image, and what is read back.
-/

namespace Intcode

namespace Numeral

/-- The number that digits stand for, by the places of the digits. -/
def placeValue (digits : List Char) : Nat :=
  Nat.ofDigits 10 (digits.reverse.map fun c => c.toNat - '0'.toNat)

theorem readDigits_eq_placeValue (digits : List Char) : readDigits digits = placeValue digits := by
  induction digits with
  | nil => rfl
  | cons c digits ih =>
    have hread : readDigits (c :: digits) =
        10 ^ digits.length * (c.toNat - '0'.toNat) + readDigits digits := by
      rw [readDigits, Nat.ofDigitChars_cons, Nat.ofDigitChars_eq_ofDigitChars_zero, Nat.mul_zero,
        Nat.zero_add, readDigits]
    rw [hread, ih, placeValue, placeValue, List.reverse_cons, List.map_append, Nat.ofDigits_append,
      List.length_map, List.length_reverse, Nat.add_comm]
    simp

/-- A sign, or none. -/
def IsSign (sign : List Char) : Prop := sign = [] ∨ sign = ['+'] ∨ sign = ['-']

/-- What is read as a sign stands in front of the rest. -/
theorem readSign_split (s : List Char) : ∃ sign, IsSign sign ∧ s = sign ++ (readSign s).2 ∧
    (readSign s).1 = decide (sign = ['-']) := by
  unfold readSign
  split
  · exact ⟨['-'], .inr (.inr rfl), rfl, rfl⟩
  · exact ⟨['+'], .inr (.inl rfl), rfl, rfl⟩
  · exact ⟨[], .inl rfl, rfl, rfl⟩

/-- A sign is read as that in front of what is empty or starts with a digit. -/
theorem readSign_of_head {sign s : List Char} (hsign : IsSign sign)
    (hs : ∀ c ∈ s.head?, c.isDigit = true) : readSign (sign ++ s) = (decide (sign = ['-']), s) := by
  rcases hsign with rfl | rfl | rfl
  · cases s with
    | nil => rfl
    | cons c s =>
      have hc := hs c rfl
      rw [List.nil_append]
      unfold readSign
      split
      · next heq => cases heq; exact absurd hc (by decide)
      · next heq => cases heq; exact absurd hc (by decide)
      · rfl
  · rfl
  · rfl

/-- A sign in front of digits is read as that. -/
theorem readSign_append {sign digits : List Char} (hsign : IsSign sign)
    (hdigits : ∀ c ∈ digits, c.isDigit = true) :
    readSign (sign ++ digits) = (decide (sign = ['-']), digits) :=
  readSign_of_head hsign fun c hc => hdigits c (List.mem_of_head? hc)

end Numeral

namespace Word

/-- The token spells the word: a sign or none, and then digits, not more than are read, that stand
for a number of 32 bits. -/
def Spells (token : List Char) (v : Int) : Prop :=
  ∃ sign digits, token = sign ++ digits ∧ Numeral.IsSign sign ∧
    (1 ≤ digits.length ∧ digits.length ≤ 4300) ∧ (∀ c ∈ digits, c.isDigit = true) ∧
    v = (if sign = ['-'] then -1 else 1) * Numeral.placeValue digits ∧ InRange v

/-- Reading a word in one condition on the sign and what follows it. -/
theorem parse_eq_ok_iff_readSign {token : List Char} {v : Int} :
    parse (String.ofList token) = .ok v ↔
      (Numeral.readSign token).2 ≠ [] ∧ (∀ c ∈ (Numeral.readSign token).2, c.isDigit = true) ∧
      (Numeral.readSign token).2.length ≤ 4300 ∧
      v = Numeral.signed (Numeral.readSign token).1
        (Numeral.readDigits (Numeral.readSign token).2) ∧ InRange v := by
  have hmax : Numeral.maxDigits = 4300 := rfl
  unfold parse
  rw [String.toList_ofList, hmax]
  generalize Numeral.readSign token = r
  obtain ⟨negative, digits⟩ := r
  simp only [Bool.or_eq_true, List.isEmpty_iff, Bool.not_eq_true', ← Bool.not_eq_true,
    List.all_eq_true]
  split
  · next hshape =>
    simp only [reduceCtorEq, false_iff]
    rintro ⟨hne, hdigits, -⟩
    exact hshape.elim hne fun h => h hdigits
  next hshape =>
  rw [not_or, Classical.not_not] at hshape
  split
  · next hlong =>
    simp only [reduceCtorEq, false_iff]
    rintro ⟨-, -, hlen, -⟩
    omega
  next hlen =>
  split
  · next hrange =>
    rw [Except.ok.injEq]
    constructor
    · rintro rfl
      exact ⟨hshape.1, hshape.2, by omega, rfl, hrange⟩
    · rintro ⟨-, -, -, rfl, -⟩
      rfl
  · next hrange =>
    simp only [reduceCtorEq, false_iff]
    rintro ⟨-, -, -, rfl, h⟩
    exact hrange h

/-- **The tokens that are read as a word** are those that spell it. -/
theorem parse_eq_ok_iff {token : List Char} {v : Int} :
    parse (String.ofList token) = .ok v ↔ Spells token v := by
  have hsigned : ∀ (sign digits : List Char),
      Numeral.signed (decide (sign = ['-'])) (Numeral.readDigits digits) =
        (if sign = ['-'] then -1 else 1) * Numeral.placeValue digits := by
    intro sign digits
    rw [Numeral.readDigits_eq_placeValue, Numeral.signed]
    by_cases h : sign = ['-'] <;> simp [h]
  rw [parse_eq_ok_iff_readSign]
  constructor
  · rintro ⟨hne, hdigits, hlen, hv, hrange⟩
    obtain ⟨sign, hsign, hsplit, hneg⟩ := Numeral.readSign_split token
    rw [hneg, hsigned] at hv
    exact ⟨sign, _, hsplit, hsign, ⟨List.length_pos_iff.2 hne, hlen⟩, hdigits, hv, hrange⟩
  · rintro ⟨sign, digits, rfl, hsign, ⟨hpos, hlen⟩, hdigits, hv, hrange⟩
    rw [Numeral.readSign_append hsign hdigits, hsigned]
    exact ⟨List.length_pos_iff.1 hpos, hdigits, hlen, hv, hrange⟩

/-- A token that spells a word is not empty, and has neither blanks nor commas in it. -/
theorem Spells.chars {token : List Char} {v : Int} (h : Spells token v) :
    token ≠ [] ∧ ∀ c ∈ token, Text.isBlank c = false ∧ c ≠ ',' := by
  obtain ⟨sign, digits, rfl, hsign, ⟨hpos, -⟩, hdigits, -⟩ := h
  refine ⟨List.append_ne_nil_of_right_ne_nil _ (List.length_pos_iff.1 hpos), ?_⟩
  intro c hc
  rcases List.mem_append.1 hc with hc | hc
  · have hsigns : c = '+' ∨ c = '-' := by
      rcases hsign with rfl | rfl | rfl
      · cases hc
      · exact .inl (List.mem_singleton.1 hc)
      · exact .inr (List.mem_singleton.1 hc)
    rcases hsigns with rfl | rfl <;> decide
  · have hdigit := hdigits c hc
    refine ⟨Text.isBlank_of_isDigit hdigit, ?_⟩
    rintro rfl
    cases hdigit

theorem spells_toString {v : Int} (h : InRange v) : Spells (toString v).toList v := by
  rw [← parse_eq_ok_iff, String.ofList_toList]
  exact parse_toString h

end Word

namespace Image

/-- The line is the tokens with commas between them, and there are no other commas. -/
def Joins (tokens : List (List Char)) (line : List Char) : Prop :=
  tokens ≠ [] ∧ (∀ token ∈ tokens, ',' ∉ token) ∧ line = [','].intercalate tokens

theorem not_mem_of_mem_splitOn {line : List Char} :
    ∀ token ∈ line.splitOn ',', ',' ∉ token := by
  induction line with
  | nil => simp
  | cons c line ih =>
    rw [List.splitOn_cons_eq_if_modifyHead]
    split
    · exact List.forall_mem_cons.2 ⟨by simp, ih⟩
    · next hc =>
      have hne : ',' ≠ c := fun h => hc (by simp [← h])
      obtain ⟨first, rest, hsplit⟩ := List.exists_cons_of_ne_nil (List.splitOn_ne_nil ',' line)
      rw [hsplit, List.forall_mem_cons] at ih
      rw [hsplit, List.modifyHead_cons, List.forall_mem_cons, List.mem_cons, not_or]
      exact ⟨⟨hne, ih.1⟩, ih.2⟩

theorem length_splitOn (line : List Char) : (line.splitOn ',').length = line.count ',' + 1 := by
  induction line with
  | nil => rfl
  | cons c line ih =>
    rw [List.splitOn_cons_eq_if_modifyHead, List.count_cons]
    split
    · rw [List.length_cons, ih]
    · rw [List.length_modifyHead, ih, Nat.add_zero]

/-- **A line splits into the tokens that it is joined from.** -/
theorem splitOn_eq_iff {line : List Char} {tokens : List (List Char)} :
    line.splitOn ',' = tokens ↔ Joins tokens line := by
  constructor
  · rintro rfl
    exact ⟨List.splitOn_ne_nil _ _, not_mem_of_mem_splitOn, (List.intercalate_splitOn _).symm⟩
  · rintro ⟨hne, hfree, rfl⟩
    exact List.splitOn_intercalate _ hfree hne

/-- All tokens are read. -/
theorem parseWords_eq_ok_iff {position : Nat} {tokens : List (List Char)} {words : List Int} :
    parseWords position tokens = .ok words ↔ List.Forall₂ Word.Spells tokens words := by
  induction tokens generalizing position words with
  | nil => simp [parseWords, eq_comm]
  | cons token rest ih =>
    rw [parseWords, List.forall₂_cons_left_iff]
    cases htoken : Word.parse (String.ofList token) with
    | error cause =>
      simp only [reduceCtorEq, false_iff]
      rintro ⟨v, vs, hspells, -⟩
      rw [← Word.parse_eq_ok_iff, htoken] at hspells
      cases hspells
    | ok w =>
      have hrest : ∀ ws, parseWords (position + 1) rest = .ok ws ↔
          List.Forall₂ Word.Spells rest ws := fun _ => ih
      simp only [← hrest, ← Word.parse_eq_ok_iff, htoken, Except.ok.injEq]
      cases parseWords (position + 1) rest with
      | error e => simp [Except.map]
      | ok ws => simp [Except.map, eq_comm]

/-- The first token that spells no word is refused. -/
theorem parseWords_eq_error_iff {position : Nat} {tokens : List (List Char)} {e : ImageError} :
    parseWords position tokens = .error e ↔ ∃ before token behind cause,
      tokens = before ++ token :: behind ∧ (∀ t ∈ before, ∃ v, Word.Spells t v) ∧
      Word.parse (String.ofList token) = .error cause ∧
      e = .badWord (position + before.length) cause := by
  induction tokens generalizing position with
  | nil => simp [parseWords]
  | cons token rest ih =>
    rw [parseWords]
    cases htoken : Word.parse (String.ofList token) with
    | error cause =>
      simp only [Except.error.injEq]
      constructor
      · rintro rfl
        exact ⟨[], token, rest, cause, rfl, by simp, htoken, rfl⟩
      · rintro ⟨before, token', behind, cause', htokens, hbefore, hcause, rfl⟩
        cases before with
        | nil =>
          cases htokens
          rw [htoken] at hcause
          cases hcause
          rfl
        | cons t before =>
          cases htokens
          obtain ⟨v, hv⟩ := hbefore _ List.mem_cons_self
          rw [← Word.parse_eq_ok_iff, htoken] at hv
          cases hv
    | ok w =>
      have hmap : (parseWords (position + 1) rest).map (w :: ·) = .error e ↔
          parseWords (position + 1) rest = .error e := by
        cases parseWords (position + 1) rest <;> simp [Except.map]
      simp only [hmap, ih]
      constructor
      · rintro ⟨before, token', behind, cause, rfl, hbefore, hcause, rfl⟩
        refine ⟨token :: before, token', behind, cause, rfl, ?_, hcause, ?_⟩
        · exact List.forall_mem_cons.2 ⟨⟨w, Word.parse_eq_ok_iff.1 htoken⟩, hbefore⟩
        · rw [List.length_cons]
          congr 1
          omega
      · rintro ⟨before, token', behind, cause, htokens, hbefore, hcause, rfl⟩
        cases before with
        | nil =>
          cases htokens
          rw [htoken] at hcause
          cases hcause
        | cons t before =>
          cases htokens
          refine ⟨before, token', behind, cause, rfl, (List.forall_mem_cons.1 hbefore).2, hcause, ?_⟩
          rw [List.length_cons]
          congr 1
          omega

theorem parse_of_trim_nil {text : List Char} (h : Text.trim text = []) :
    parse text = .error .empty := by
  simp [parse, h]

theorem parse_of_trim_ne_nil {text : List Char} (h : Text.trim text ≠ []) :
    parse text = parseWords 0 ((Text.trim text).splitOn ',') := by
  simp [parse, h]

/-- **The texts that are read as an image.** -/
theorem parse_eq_ok_iff {text : List Char} {words : List Int} :
    parse text = .ok words ↔ ∃ tokens, Joins tokens (Text.trim text) ∧
      List.Forall₂ Word.Spells tokens words := by
  by_cases hnil : Text.trim text = []
  · -- the only token of an empty line is empty, and spells no word
    rw [parse_of_trim_nil hnil, hnil]
    simp only [← splitOn_eq_iff, List.splitOn_nil, reduceCtorEq, false_iff]
    rintro ⟨_, rfl, hspells⟩
    obtain ⟨v, _, hv, -⟩ := List.forall₂_cons_left_iff.1 hspells
    exact hv.chars.1 rfl
  · simp only [parse_of_trim_ne_nil hnil, parseWords_eq_ok_iff, ← splitOn_eq_iff, exists_eq_left']

theorem exists_spells {tokens : List (List Char)} {words : List Int}
    (h : List.Forall₂ Word.Spells tokens words) : ∀ token ∈ tokens, ∃ v, Word.Spells token v := by
  induction h with
  | nil => simp
  | cons hv _ ih => exact List.forall_mem_cons.2 ⟨⟨_, hv⟩, ih⟩

/-- Tokens that spell words have no commas in them. -/
theorem joins_of_spells {tokens : List (List Char)} {words : List Int}
    (h : List.Forall₂ Word.Spells tokens words) (hne : tokens ≠ []) :
    Joins tokens ([','].intercalate tokens) := by
  refine ⟨hne, ?_, rfl⟩
  intro token htoken hcomma
  obtain ⟨v, hv⟩ := exists_spells h token htoken
  exact (hv.chars.2 _ hcomma).2 rfl

/-- A line of tokens without blanks has none either. -/
theorem isBlank_of_mem_intercalate {tokens : List (List Char)}
    (h : ∀ token ∈ tokens, ∀ c ∈ token, Text.isBlank c = false) :
    ∀ c ∈ [','].intercalate tokens, Text.isBlank c = false := by
  induction tokens with
  | nil => simp
  | cons token rest ih =>
    obtain ⟨htoken, hrest⟩ := List.forall_mem_cons.1 h
    by_cases hne : rest = []
    · rw [hne, List.intercalate_singleton]
      exact htoken
    · rw [List.intercalate_cons_of_ne_nil hne]
      intro c hc
      rcases List.mem_append.1 hc with hc | hc
      · rcases List.mem_append.1 hc with hc | hc
        · exact htoken c hc
        · rw [List.mem_singleton.1 hc]
          decide
      · exact ih hrest c hc

/-- The tokens of the written form of an image. -/
theorem toList_text (words : List Int) :
    (text words).toList = [','].intercalate (words.map fun w => (toString w).toList) := by
  rw [text, String.toList_intercalate, List.map_map]
  rfl

theorem spells_tokens {words : List Int} (h : ∀ w ∈ words, Word.InRange w) :
    List.Forall₂ Word.Spells (words.map fun w => (toString w).toList) words := by
  rw [List.forall₂_map_left_iff, List.forall₂_same]
  exact fun w hw => Word.spells_toString (h w hw)

/-- **The written form of an image is read back**, whatever blanks are around it. -/
theorem parse_text {words : List Int} {u v : List Char} (hne : words ≠ [])
    (hwords : ∀ w ∈ words, Word.InRange w) (hu : ∀ c ∈ u, Text.isBlank c = true)
    (hv : ∀ c ∈ v, Text.isBlank c = true) : parse (u ++ ((text words).toList ++ v)) = .ok words := by
  have hspells := spells_tokens hwords
  have hplain : ∀ c ∈ (text words).toList, Text.isBlank c = false := by
    rw [toList_text]
    apply isBlank_of_mem_intercalate
    intro token htoken c hc
    obtain ⟨w, hw⟩ := exists_spells hspells token htoken
    exact (hw.chars.2 c hc).1
  rw [parse_eq_ok_iff, Text.trim_append hu hplain hv, toList_text]
  exact ⟨_, joins_of_spells hspells (by simpa using hne), hspells⟩

/-- **What is read as an image**: a line that, blanks around it aside, is one or more tokens with
commas between them, each of which spells a word; the words are those of the image. Of any other line
that is not blank it is said which token is the first that spells no word. The written form of an
image is read back, whatever blanks are around it. -/
theorem parse_grammar :
    (∀ (line : List Char) (words : List Int), parse line = .ok words ↔
      ∃ tokens, tokens ≠ [] ∧ Text.trim line = [','].intercalate tokens ∧
        List.Forall₂ Word.Spells tokens words) ∧
    (∀ (line : List Char) (words : List Int), parse line = .ok words →
      words.length = (Text.trim line).count ',' + 1) ∧
    (∀ line : List Char, parse line = .error .empty ↔ Text.trim line = []) ∧
    (∀ (line : List Char) (e : ImageError), Text.trim line ≠ [] →
      (parse line = .error e ↔ ∃ before token behind cause,
        Joins (before ++ token :: behind) (Text.trim line) ∧
        (∀ t ∈ before, ∃ v, Word.Spells t v) ∧ (¬ ∃ v, Word.Spells token v) ∧
        Word.parse (String.ofList token) = .error cause ∧ e = .badWord before.length cause)) ∧
    (∀ position cause, (ImageError.badWord position cause).message =
      "bad integer at position " ++ toString position ++ ": " ++ cause.message) ∧
    ∀ (words : List Int) (u v : List Char), words ≠ [] → (∀ w ∈ words, Word.InRange w) →
      (∀ c ∈ u, Text.isBlank c = true) → (∀ c ∈ v, Text.isBlank c = true) →
      parse (u ++ (text words).toList ++ v) = .ok words := by
  refine ⟨?_, ?_, ?_, ?_, fun _ _ => rfl, ?_⟩
  · intro line words
    rw [parse_eq_ok_iff]
    constructor
    · rintro ⟨tokens, ⟨hne, -, hline⟩, hspells⟩
      exact ⟨tokens, hne, hline, hspells⟩
    · rintro ⟨tokens, hne, hline, hspells⟩
      exact ⟨tokens, hline ▸ joins_of_spells hspells hne, hspells⟩
  · intro line words h
    obtain ⟨tokens, hjoins, hspells⟩ := parse_eq_ok_iff.1 h
    rw [← hspells.length_eq, ← splitOn_eq_iff.2 hjoins, length_splitOn]
  · intro line
    refine ⟨fun h => ?_, parse_of_trim_nil⟩
    by_contra hne
    rw [parse_of_trim_ne_nil hne, parseWords_eq_error_iff] at h
    obtain ⟨_, _, _, _, -, -, -, h⟩ := h
    cases h
  · intro line e hne
    rw [parse_of_trim_ne_nil hne, parseWords_eq_error_iff]
    simp only [splitOn_eq_iff, Nat.zero_add, ← Word.parse_eq_ok_iff]
    refine exists_congr fun before => exists_congr fun token => exists_congr fun behind =>
      exists_congr fun cause => and_congr_right fun _ => and_congr_right fun _ => ?_
    constructor
    · rintro ⟨hcause, he⟩
      exact ⟨by simp [hcause], hcause, he⟩
    · rintro ⟨-, hcause, he⟩
      exact ⟨hcause, he⟩
  · intro words u v hne hwords hu hv
    rw [List.append_assoc]
    exact parse_text hne hwords hu hv

/-- The least and the greatest word, between a line separator and a line feed. -/
theorem parse_grammar_limits :
    parse (['\u2028', ' '] ++ (text [Word.least, Word.greatest, 0]).toList ++ ['\n']) =
      .ok [Word.least, Word.greatest, 0] := by
  have hbefore : ∀ c ∈ ['\u2028', ' '], Text.isBlank c = true :=
    List.forall_mem_cons.2 ⟨by decide, List.forall_mem_singleton.2 (by decide)⟩
  have hbehind : ∀ c ∈ ['\n'], Text.isBlank c = true := List.forall_mem_singleton.2 (by decide)
  obtain ⟨-, -, -, -, -, hread⟩ := parse_grammar
  exact hread _ _ _ (by decide) (by decide) hbefore hbehind

/-- A token that is empty: the first of two that spell no word is named. -/
example : parse "1,,2,x".toList = .error (.badWord 1 (.notDecimal "")) := by decide

end Image

end Intcode
