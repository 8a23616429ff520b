import Mathlib.Data.List.TakeWhile
import Intcode.Proofs.ImageText

/-!
# The first line of a file

A file is octets, of which the first line is read block by block. For a file that holds a
text, blocks and octets make no difference: an image is read from what stands before the
first newline of the text, and nothing behind that newline matters.

* `Text.Utf8.scan_utf8EncodeChar`, `Text.Utf8.scan_toUTF8`: the octets of a text are read back
  as that text.
* `Text.takeLine_unifyNewlines`: newlines of all three forms end a line.
* `firstLineFrom_eq`: reading block by block is reading at once.
* `Image.load_eq_parse`: an image is read from the first line.
* `Image.load_headline`: files with the same first line, and files that hold an image.
-/

namespace Intcode

namespace Text.Utf8

theorem scan_lead {b : Nat} {st : State} (h : lead? b = some st) (bs : List Nat) :
    scan .between (b :: bs) = scan st bs := by
  have hb : ¬ b < 0x80 := by
    intro hlt
    rw [lead?, if_pos (by omega)] at h
    cases h
  rw [scan, if_neg hb, h]
  rfl

theorem scan_more {more bits low high b : Nat} (h : low ≤ b ∧ b ≤ high) (bs : List Nat) :
    scan (.owed (more + 1) bits low high) (b :: bs) =
      scan (.owed more (bits * 64 + (b - 0x80)) 0x80 0xBF) bs := by
  rw [scan, if_pos h]

theorem scan_last {bits low high b : Nat} (h : low ≤ b ∧ b ≤ high) (bs : List Nat) :
    scan (.owed 0 bits low high) (b :: bs) =
      (scan .between bs).map fun r => (Char.ofNat (bits * 64 + (b - 0x80)) :: r.1, r.2) := by
  rw [scan, if_pos h]

theorem lead?_two {k : Nat} (hlow : 2 ≤ k) (hhigh : k < 32) :
    lead? (k + 0xC0) = some (.owed 0 k 0x80 0xBF) := by
  rw [lead?, if_neg (by omega), if_pos (by omega), Nat.add_sub_cancel]

/-- The bounds on the octet after the lead of three rule out overlong forms and surrogates. -/
theorem lead?_three {k : Nat} (h : k < 16) : ∃ low high, lead? (k + 0xE0) = some (.owed 1 k low high) ∧
    ∀ b, 0x80 ≤ b → b ≤ 0xBF → (k = 0 → 0xA0 ≤ b) → (k = 13 → b ≤ 0x9F) → low ≤ b ∧ b ≤ high := by
  unfold lead?
  rw [if_neg (by omega), if_neg (by omega)]
  by_cases h0 : k = 0
  · subst h0
    exact ⟨0xA0, 0xBF, rfl, fun b _ hb h0 _ => ⟨h0 rfl, hb⟩⟩
  · rw [if_neg (by omega)]
    by_cases h13 : k = 13
    · subst h13
      exact ⟨0x80, 0x9F, rfl, fun b hb _ _ h13 => ⟨hb, h13 rfl⟩⟩
    · rw [if_neg (by omega), if_pos (by omega), Nat.add_sub_cancel]
      exact ⟨0x80, 0xBF, rfl, fun b hlow hhigh _ _ => ⟨hlow, hhigh⟩⟩

/-- The bounds on the octet after the lead of four rule out overlong forms and what is past the last
character. -/
theorem lead?_four {k : Nat} (h : k ≤ 4) : ∃ low high, lead? (k + 0xF0) = some (.owed 2 k low high) ∧
    ∀ b, 0x80 ≤ b → b ≤ 0xBF → (k = 0 → 0x90 ≤ b) → (k = 4 → b ≤ 0x8F) → low ≤ b ∧ b ≤ high := by
  unfold lead?
  rw [if_neg (by omega), if_neg (by omega), if_neg (by omega), if_neg (by omega), if_neg (by omega)]
  by_cases h0 : k = 0
  · subst h0
    exact ⟨0x90, 0xBF, rfl, fun b _ hb h0 _ => ⟨h0 rfl, hb⟩⟩
  · rw [if_neg (by omega)]
    by_cases h4 : k = 4
    · subst h4
      exact ⟨0x80, 0x8F, rfl, fun b hb _ _ h4 => ⟨hb, h4 rfl⟩⟩
    · rw [if_pos (by omega), Nat.add_sub_cancel]
      exact ⟨0x80, 0xBF, rfl, fun b hlow hhigh _ _ => ⟨hlow, hhigh⟩⟩

/-- **The octets of a character are read back as that character**, whatever follows them. -/
theorem scan_utf8EncodeChar (c : Char) (bs : List Nat) :
    scan .between ((String.utf8EncodeChar c).map UInt8.toNat ++ bs) =
      (scan .between bs).map fun r => (c :: r.1, r.2) := by
  have hvalid : c.val.toNat < 0xD800 ∨ 0xDFFF < c.val.toNat ∧ c.val.toNat < 0x110000 := c.valid
  have hchar : Char.ofNat c.val.toNat = c := Char.ofNat_toNat c
  have hoctet : ∀ n < 256, (UInt8.ofNat n).toNat = n := fun n hn => UInt8.toNat_ofNat_of_lt' hn
  unfold String.utf8EncodeChar
  generalize c.val.toNat = v at hvalid hchar
  by_cases h1 : v ≤ 127
  · simp only [h1, if_true, List.map_cons, List.map_nil, List.cons_append, List.nil_append]
    rw [hoctet v (by omega), scan, if_pos (by omega), hchar]
  by_cases h2 : v ≤ 2047
  · simp only [h1, h2, if_true, if_false, List.map_cons, List.map_nil, List.cons_append, List.nil_append]
    rw [hoctet _ (by omega), hoctet _ (by omega), scan_lead (lead?_two (by omega) (by omega)),
      scan_last (by omega)]
    have hbits : v / 64 % 32 * 64 + (v % 64 + 128 - 128) = v := by omega
    rw [hbits, hchar]
  by_cases h3 : v ≤ 65535
  · simp only [h1, h2, h3, if_true, if_false, List.map_cons, List.map_nil, List.cons_append,
      List.nil_append]
    obtain ⟨low, high, hlead, hbounds⟩ := lead?_three (k := v / 4096 % 16) (by omega)
    rw [hoctet _ (by omega), hoctet _ (by omega), hoctet _ (by omega), scan_lead hlead,
      scan_more (hbounds _ (by omega) (by omega) (by omega) (by omega)), scan_last (by omega)]
    have hbits : (v / 4096 % 16 * 64 + (v / 64 % 64 + 128 - 128)) * 64 + (v % 64 + 128 - 128) = v := by
      omega
    rw [hbits, hchar]
  · simp only [h1, h2, h3, if_false, List.map_cons, List.map_nil, List.cons_append, List.nil_append]
    obtain ⟨low, high, hlead, hbounds⟩ := lead?_four (k := v / 262144 % 8) (by omega)
    rw [hoctet _ (by omega), hoctet _ (by omega), hoctet _ (by omega), hoctet _ (by omega),
      scan_lead hlead, scan_more (hbounds _ (by omega) (by omega) (by omega) (by omega)),
      scan_more (by omega), scan_last (by omega)]
    have hbits : ((v / 262144 % 8 * 64 + (v / 4096 % 64 + 128 - 128)) * 64 +
        (v / 64 % 64 + 128 - 128)) * 64 + (v % 64 + 128 - 128) = v := by
      omega
    rw [hbits, hchar]

/-- The list of a byte array has the octets of its array, from where the list is gathered on. -/
theorem toList_loop (bs : ByteArray) (i : Nat) (gathered : List UInt8) :
    ByteArray.toList.loop bs i gathered = gathered.reverse ++ bs.data.toList.drop i := by
  fun_induction ByteArray.toList.loop bs i gathered with
  | case1 i gathered hlt ih =>
    have hget : bs.get! i = bs.data[i]! := by
      cases bs
      rfl
    have hdrop : bs.data.toList.drop i = bs.get! i :: bs.data.toList.drop (i + 1) := by
      rw [List.drop_eq_getElem_cons (by simpa using hlt), hget, getElem!_pos bs.data i hlt,
        Array.getElem_toList]
    rw [ih, hdrop, List.reverse_cons, List.append_assoc]
    rfl
  | case2 i gathered hlt =>
    rw [List.drop_eq_nil_of_le (by simpa using hlt), List.append_nil]

theorem toList_toUTF8 (s : String) : s.toUTF8.toList = s.toList.flatMap String.utf8EncodeChar := by
  have harray : s.toUTF8 = (s.toList.flatMap String.utf8EncodeChar).toByteArray := by
    rw [String.toUTF8_eq_toByteArray]
    conv_lhs => rw [← String.ofList_toList (s := s)]
    rw [String.toByteArray_ofList]
    rfl
  rw [harray, ByteArray.toList, toList_loop, List.toList_data_toByteArray]
  rfl

/-- **The octets of a text are read back as that text.** -/
theorem scan_toUTF8 (s : String) :
    scan .between (s.toUTF8.toList.map UInt8.toNat) = some (s.toList, .between) := by
  rw [toList_toUTF8]
  induction s.toList with
  | nil => rfl
  | cons c s ih =>
    rw [List.flatMap_cons, List.map_append, scan_utf8EncodeChar, ih]
    rfl

/-- Octets that are read are read up to any place and from there on. -/
theorem scan_split {st st' : State} {octets : List Nat} {text : List Char}
    (h : scan st octets = some (text, st')) (n : Nat) :
    ∃ front mid back, scan st (octets.take n) = some (front, mid) ∧
      scan mid (octets.drop n) = some (back, st') ∧ text = front ++ back := by
  rw [← List.take_append_drop n octets, scan_append, Option.bind_eq_some_iff] at h
  obtain ⟨⟨front, mid⟩, hfront, h⟩ := h
  obtain ⟨⟨back, last⟩, hback, h⟩ := Option.map_eq_some_iff.1 h
  cases h
  exact ⟨front, mid, back, hfront, hback, rfl⟩

end Text.Utf8

namespace Text

/-- Does the character end a line of a file? -/
def isNewline (c : Char) : Bool := c = '\n' || c = '\r'

/-- What stands before the first newline of a text. -/
def headline (s : List Char) : List Char := s.takeWhile fun c => !isNewline c

/-- **Newlines of all forms end a line**, and a line that ends is given a line feed. -/
theorem takeLine_unifyNewlines (s : List Char) :
    takeLine (unifyNewlines s) = headline s ++ if s.any isNewline then ['\n'] else [] := by
  fun_induction unifyNewlines s with
  | case1 => rfl
  | case2 s ih => rfl
  | case3 c s h ih =>
    by_cases hr : c = '\r'
    · subst hr
      rfl
    · by_cases hn : c = '\n'
      · subst hn
        rfl
      · have hc : isNewline c = false := by simp [isNewline, hr, hn]
        simp [takeLine, headline, hr, hn, hc, ih]

/-- What comes behind a newline does not matter. -/
theorem headline_append {s : List Char} (h : s.any isNewline = true) (t : List Char) :
    headline (s ++ t) = headline s := by
  induction s with
  | nil => cases h
  | cons c s ih =>
    rw [List.cons_append, headline, headline, List.takeWhile_cons, List.takeWhile_cons]
    by_cases hc : isNewline c = true
    · rw [hc]
      rfl
    · have hrest : s.any isNewline = true := by simpa [hc] using h
      simp only [hc, Bool.not_false, if_true]
      exact congrArg (c :: ·) (ih hrest)

theorem takeLine_unifyNewlines_append {s : List Char} (h : s.any isNewline = true) (t : List Char) :
    takeLine (unifyNewlines (s ++ t)) = takeLine (unifyNewlines s) := by
  rw [takeLine_unifyNewlines, takeLine_unifyNewlines, headline_append h, List.any_append, h,
    Bool.true_or]

end Text

/-- The part of a text whose line ends are known is where the text starts. -/
theorem settled_prefix (s : List Char) : ∃ t, settled s ++ t = s := by
  unfold settled
  split
  · exact ⟨_, s.dropLast_append_getLast? _ (by assumption)⟩
  · exact ⟨[], List.append_nil s⟩

/-- **Reading block by block is reading at once**: the first line is that of the whole text. -/
theorem firstLineFrom_eq {st : Text.Utf8.State} {held text : List Char} {octets : List Nat}
    (h : Text.Utf8.scan st octets = some (text, .between)) :
    firstLineFrom st held octets = some (Text.takeLine (Text.unifyNewlines (held ++ text))) := by
  fun_induction firstLineFrom st held octets generalizing text with
  | case1 held =>
    cases h
    rw [List.append_nil]
  | case2 st held hst =>
    cases h
    exact absurd rfl hst
  | case3 st held octets _ hscan =>
    obtain ⟨front, mid, back, hfront, -⟩ := Text.Utf8.scan_split h blockSize
    rw [hscan] at hfront
    cases hfront
  | case4 st held octets _ cs st' hscan whole known =>
    rename_i hknown
    -- the newline is among what is known, and all that follows is behind it
    obtain ⟨front, mid, back, hfront, -, rfl⟩ := Text.Utf8.scan_split h blockSize
    rw [hscan] at hfront
    cases hfront
    obtain ⟨unknown, hwhole⟩ := settled_prefix whole
    have hsplit : held ++ (cs ++ back) = known ++ (unknown ++ back) := by
      rw [← List.append_assoc, ← List.append_assoc]
      exact congrArg (· ++ back) hwhole.symm
    rw [hsplit, Text.takeLine_unifyNewlines_append hknown]
  | case5 st held octets _ cs st' hscan whole known _ =>
    rename_i ih
    obtain ⟨front, mid, back, hfront, hback, rfl⟩ := Text.Utf8.scan_split h blockSize
    rw [hscan] at hfront
    cases hfront
    rw [ih hback, List.append_assoc]

/-- A path leads to a file that holds a text. -/
def Files.HoldsText (fs : Files) (path : String) (text : String) : Prop :=
  fs.find? path = some (.file text.toUTF8.toList)

namespace Image

theorem parse_newline (line : List Char) : parse (line ++ ['\n']) = parse line := by
  have hblank : ∀ c ∈ ['\n'], Text.isBlank c = true := List.forall_mem_singleton.2 (by decide)
  rw [parse, parse, Text.trim_append_blanks line hblank]

/-- **An image is read from the first line** of its file. -/
theorem load_eq_parse {fs : Files} {path content : String} (h : fs.HoldsText path content) :
    load fs path = (parse (Text.headline content.toList)).mapError .refused := by
  have hline : firstLine? content.toUTF8.toList =
      some (Text.takeLine (Text.unifyNewlines content.toList)) :=
    firstLineFrom_eq (Text.Utf8.scan_toUTF8 content)
  rw [load, h]
  simp only [hline, Text.takeLine_unifyNewlines]
  split
  · rw [parse_newline]
  · rw [List.append_nil]

/-- The written form of an image is on one line. -/
theorem isNewline_of_mem_text {words : List Int} {c : Char} (h : c ∈ (text words).toList) :
    Text.isNewline c = false := by
  rw [toList_text] at h
  have hblank : Text.isBlank c = false := by
    refine isBlank_of_mem_intercalate ?_ c h
    intro token htoken c hc
    obtain ⟨w, -, rfl⟩ := List.mem_map.1 htoken
    exact Text.isBlank_of_mem_toString hc
  -- a newline is blank
  by_contra hnewline
  simp only [Text.isNewline, Bool.not_eq_false, Bool.or_eq_true, decide_eq_true_eq] at hnewline
  rcases hnewline with rfl | rfl
  · cases hblank
  · cases hblank

theorem headline_text (words : List Int) {ending rest : String}
    (h : ending = "" ∧ rest = "" ∨ ending ∈ ["\n", "\r", "\r\n"]) :
    Text.headline (text words ++ ending ++ rest).toList = (text words).toList := by
  have hline : ∀ c ∈ (text words).toList, (!Text.isNewline c) = true := by
    intro c hc
    rw [isNewline_of_mem_text hc]
    rfl
  have hends : Text.headline (ending.toList ++ rest.toList) = [] := by
    simp only [List.mem_cons, List.not_mem_nil, or_false] at h
    rcases h with ⟨rfl, rfl⟩ | rfl | rfl | rfl <;> rfl
  rw [String.toList_append, String.toList_append, List.append_assoc, Text.headline,
    List.takeWhile_append_of_pos hline]
  exact (congrArg _ hends).trans (List.append_nil _)

/-- **Only the first line of a program counts.** Files whose texts are the same up to the first newline,
be it a line feed, a carriage return or both, give the same image, or are refused for the same reason.
So the written form of an image is read back, whatever comes behind the newline that ends its line. -/
theorem load_headline :
    (∀ (fs fs' : Files) (path path' content content' : String),
      fs.HoldsText path content → fs'.HoldsText path' content' →
      Text.headline content.toList = Text.headline content'.toList → load fs path = load fs' path') ∧
    ∀ (fs : Files) (path : String) (words : List Int) (ending rest : String),
      words ≠ [] → (∀ w ∈ words, Word.InRange w) →
      ending = "" ∧ rest = "" ∨ ending ∈ ["\n", "\r", "\r\n"] →
      fs.HoldsText path (text words ++ ending ++ rest) → load fs path = .ok words := by
  constructor
  · intro fs fs' path path' content content' hfile hfile' hsame
    rw [load_eq_parse hfile, load_eq_parse hfile', hsame]
  · intro fs path words ending rest hne hwords hending hfile
    have hparse := parse_text (u := []) (v := []) hne hwords (by simp) (by simp)
    rw [List.nil_append, List.append_nil] at hparse
    rw [load_eq_parse hfile, headline_text words hending, hparse]
    rfl

/-- An image before a carriage return, with a line feed and more behind it, and the same image at the end
of a file. -/
theorem load_headline_return :
    let content := text [3, -1, 99] ++ "\r" ++ "\nx,y"
    let fs : Files := ⟨[(⟨.above 0, ["p"]⟩, .file content.toUTF8.toList),
      (⟨.above 0, ["q"]⟩, .file "3,-1,99".toUTF8.toList)]⟩
    fs.HoldsText "p" content ∧ fs.HoldsText "q" "3,-1,99" ∧ load fs "p" = load fs "q" ∧
      load fs "p" = .ok [3, -1, 99] := by
  intro content fs
  have hp : fs.HoldsText "p" content := rfl
  have hq : fs.HoldsText "q" "3,-1,99" := rfl
  have hline : Text.headline content.toList = Text.headline "3,-1,99".toList := by decide +kernel
  obtain ⟨hsame, hread⟩ := load_headline
  exact ⟨hp, hq, hsame fs fs "p" "q" _ _ hp hq hline,
    hread fs "p" [3, -1, 99] "\r" "\nx,y" (by decide) (by decide) (by decide) hp⟩

end Image

end Intcode
