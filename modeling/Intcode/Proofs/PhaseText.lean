import Mathlib.Data.List.TakeWhile
import Intcode.Proofs.BestOrder
import Intcode.Proofs.CommandOutcome
import Intcode.Proofs.ImageText
import Intcode.Proofs.LayeredConfig
import Intcode.Proofs.PhaseOption

/-!
# Phases as text

Phases can be given as a list or as a text with commas between the numbers, with blanks
around the numbers and with segments that are blank. Both forms have the same outcome. So
the order that a search shows can be given back to the command, which takes it as it is;
but a list that starts with a dash has to follow an equals sign.

* `Numeral.readShown_toString`: a number that can be written is read back.
* `Listing`: the texts that list some numbers.
* `Value.toInts_listing`: such a text stands for its numbers.
* `CommandLine.loadConfig_withPhases`: what other phases on the command line do.
* `CommandLine.classify_commaList`: a list that looks like an option.
* `CommandLine.takesBack_of_perm`: the command takes any order of its phases.
* `Config.load_listing`: text and list agree, and the order that is shown can be given back.
* `Config.listing_dashed`: the order that is shown, behind a space, and refused.
-/

namespace Intcode

/-- All of a text is trimmed off if all of it is blank. -/
theorem Text.trim_eq_nil_iff {s : List Char} : trim s = [] ↔ ∀ c ∈ s, isBlank c = true := by
  rw [trim, trimRight, List.reverse_eq_nil_iff, List.dropWhile_eq_nil_iff]
  simp only [List.mem_reverse]
  constructor
  · intro h c hc
    rw [← List.takeWhile_append_dropWhile (p := isBlank) (l := s), List.mem_append] at hc
    rcases hc with hc | hc
    · exact List.mem_takeWhile_imp hc
    · exact h c hc
  · intro h c hc
    exact h c ((List.dropWhile_suffix _).mem hc)

/-- A digit has a value. -/
theorem Text.digitValue?_of_isDigit {c : Char} (h : c.isDigit = true) :
    (digitValue? c).isSome = true := by
  have hrange := toNat_of_isDigit h
  rw [digitValue?, Option.isSome_map, List.find?_isSome]
  refine ⟨0x30, by decide, ?_⟩
  simp only [Bool.and_eq_true, decide_eq_true_eq]
  omega

namespace Numeral

/-- May the character stand around a numeral? -/
def surrounds (c : Char) : Bool := Text.isPlainBlank (plain c)

example : surrounds ' ' = true ∧ surrounds '\u2003' = true ∧ surrounds '\x1C' = false := by decide

theorem isBlank_of_isPlainBlank {c : Char} (h : Text.isPlainBlank c = true) :
    Text.isBlank c = true := by
  simp only [Text.isPlainBlank, Bool.or_eq_true, Bool.and_eq_true, decide_eq_true_eq] at h
  rcases h with rfl | h
  · decide
  · exact Text.CharClass.mem_iff.2 ⟨(0x09, 0x0D), by simp [Text.blanks], h⟩

/-- A blank ends the digits of a numeral. -/
theorem not_isDigit_of_isPlainBlank {c : Char} (h : Text.isPlainBlank c = true) :
    c.isDigit = false ∧ c ≠ '_' := by
  have hblank := isBlank_of_isPlainBlank h
  constructor
  · by_contra hdigit
    rw [Text.isBlank_of_isDigit (Bool.not_eq_false _ ▸ hdigit)] at hblank
    cases hblank
  · rintro rfl
    cases h

/-- A character of a written number stands for itself, and is no blank. -/
theorem plain_of_mem_toString {x : Int} {c : Char} (h : c ∈ (toString x).toList) :
    plain c = c ∧ Text.isPlainBlank c = false := by
  have hlow : c.toNat < 0x7F := by
    rcases mem_toString h with rfl | hdigit
    · decide
    · have := Text.toNat_of_isDigit hdigit
      omega
  refine ⟨if_pos hlow, ?_⟩
  by_contra hblank
  have := isBlank_of_isPlainBlank (Bool.not_eq_false _ ▸ hblank)
  rw [Text.isBlank_of_mem_toString h] at this
  cases this

/-- The sign of a written number is read, whatever follows the number. -/
theorem readSign_toString (x : Int) (rest : List Char) :
    readSign ((toString x).toList ++ rest) = (decide (x < 0), Nat.toDigits 10 x.natAbs ++ rest) := by
  have hhead : ∀ c ∈ (Nat.toDigits 10 x.natAbs ++ rest).head?, c.isDigit = true := by
    intro c hc
    obtain ⟨d, digits, hdigits⟩ := List.exists_cons_of_ne_nil
      (Nat.toDigits_ne_nil (n := x.natAbs) (b := 10))
    rw [hdigits] at hc
    cases hc
    exact Nat.isDigit_of_mem_toDigits (by decide) (by decide) (hdigits ▸ List.mem_cons_self)
  rw [toList_toString_int, List.append_assoc]
  by_cases hx : x < 0
  · rw [if_pos hx, readSign_of_head (.inr (.inr rfl)) hhead, decide_eq_true hx]
    rfl
  · rw [if_neg hx, readSign_of_head (.inl rfl) hhead, decide_eq_false hx]
    rfl

theorem signed_natAbs (x : Int) : signed (decide (x < 0)) x.natAbs = x := by
  by_cases hx : x < 0
  · rw [decide_eq_true hx, signed, if_pos rfl]
    omega
  · rw [decide_eq_false hx, signed, if_neg (by decide)]
    omega

theorem spanDigits_append {digits rest : List Char} (hdigits : ∀ c ∈ digits, c.isDigit = true)
    (hrest : ∀ c ∈ rest, Text.isPlainBlank c = true) (afterDigit : Bool) :
    spanDigits afterDigit (digits ++ rest) =
      (digits, if digits = [] then afterDigit else true, rest) := by
  induction digits generalizing afterDigit with
  | nil =>
    cases rest with
    | nil => rfl
    | cons c rest =>
      obtain ⟨hdigit, hunderscore⟩ := not_isDigit_of_isPlainBlank (hrest c List.mem_cons_self)
      simp [spanDigits, hdigit, hunderscore]
  | cons c digits ih =>
    obtain ⟨hc, hdigits⟩ := List.forall_mem_cons.1 hdigits
    simp [spanDigits, hc, ih hdigits]

/-- **A number that can be written is read back**, whatever blanks are around it. -/
theorem readShown_toString (quoted : String) {x : Int} (hx : writable x = true)
    {before behind : List Char} (hbefore : ∀ c ∈ before, surrounds c = true)
    (hbehind : ∀ c ∈ behind, surrounds c = true) :
    readShown quoted (before ++ ((toString x).toList ++ behind)) = .ok x := by
  have htoken : (toString x).toList.map plain = (toString x).toList :=
    (List.map_congr_left fun c hc => (plain_of_mem_toString hc).1).trans (List.map_id _)
  have hfront : ∀ c ∈ before.map plain, Text.isPlainBlank c = true := by
    rw [List.forall_mem_map]
    exact hbefore
  have hback : ∀ c ∈ behind.map plain, Text.isPlainBlank c = true := by
    rw [List.forall_mem_map]
    exact hbehind
  have hstart : ((before ++ ((toString x).toList ++ behind)).map plain).dropWhile Text.isPlainBlank =
      (toString x).toList ++ behind.map plain := by
    rw [List.map_append, List.dropWhile_append_of_pos hfront, List.map_append, htoken]
    obtain ⟨c, token, hc⟩ := List.exists_cons_of_ne_nil (toString_ne_nil x)
    have hplain := (plain_of_mem_toString (x := x) (hc ▸ List.mem_cons_self)).2
    rw [hc, List.cons_append, List.dropWhile_cons_of_neg (by rw [hplain]; decide)]
  have hdigits : ∀ c ∈ Nat.toDigits 10 x.natAbs, c.isDigit = true := fun c hc =>
    Nat.isDigit_of_mem_toDigits (by decide) (by decide) hc
  have hlen : ¬ (Nat.toDigits 10 x.natAbs).length > maxDigits := by
    simpa [writable] using hx
  unfold readShown
  simp only [hstart, readSign_toString, spanDigits_append hdigits hback]
  simp [hlen, List.all_eq_true.2 hback, readDigits_toDigits, signed_natAbs]

end Numeral

/-- Segments that list some numbers: each is blank, or is the next number with blanks around it. -/
inductive Listing : List String → List Int → Prop where
  | nil : Listing [] []
  | blank {segment : String} {segments : List String} {xs : List Int}
    (h : ∀ c ∈ segment.toList, Text.isBlank c = true) (rest : Listing segments xs) :
    Listing (segment :: segments) xs
  | number {before behind : String} {x : Int} {segments : List String} {xs : List Int}
    (hbefore : ∀ c ∈ before.toList, Numeral.surrounds c = true)
    (hbehind : ∀ c ∈ behind.toList, Numeral.surrounds c = true) (rest : Listing segments xs) :
    Listing ((before ++ toString x ++ behind) :: segments) (x :: xs)

namespace Listing

/-- Numbers with nothing but commas between them. -/
theorem map_toString (xs : List Int) : Listing (xs.map toString) xs := by
  induction xs with
  | nil => exact .nil
  | cons x xs ih =>
    have hplain := @number "" "" x _ _ (by simp) (by simp) ih
    rwa [String.empty_append, String.append_empty] at hplain

/-- There are no commas in the segments. -/
theorem comma_not_mem {segments : List String} {xs : List Int} (h : Listing segments xs) :
    ∀ segment ∈ segments, ',' ∉ segment.toList := by
  induction h with
  | nil => simp
  | blank h _ ih =>
    refine List.forall_mem_cons.2 ⟨?_, ih⟩
    intro hcomma
    cases h _ hcomma
  | @number before behind x _ _ hbefore hbehind _ ih =>
    refine List.forall_mem_cons.2 ⟨?_, ih⟩
    rw [String.toList_append, String.toList_append, List.mem_append, List.mem_append]
    rintro ((hcomma | hcomma) | hcomma)
    · cases hbefore _ hcomma
    · rcases Numeral.mem_toString hcomma with h | h <;> cases h
    · cases hbehind _ hcomma

end Listing

namespace Value

/-- The segments of a text that is joined from segments are those that are not blank. -/
theorem segments_intercalate {segments : List String} (h : ∀ s ∈ segments, ',' ∉ s.toList) :
    Value.segments (",".intercalate segments) =
      segments.filter fun s => !(Text.trim s.toList).isEmpty := by
  unfold Value.segments
  rw [String.toList_intercalate]
  by_cases hnil : segments = []
  · subst hnil
    rfl
  · have hsplit : ([','].intercalate (segments.map String.toList)).splitOn ',' =
        segments.map String.toList :=
      List.splitOn_intercalate _ (List.forall_mem_map.2 h) (by simpa using hnil)
    show ((([','].intercalate (segments.map String.toList)).splitOn ',').filter _).map _ = _
    rw [hsplit, List.filter_map, List.map_map]
    have hback : String.ofList ∘ String.toList = id := funext fun _ => String.ofList_toList
    rw [hback, List.map_id]
    rfl

/-- **A text that lists numbers stands for them.** -/
theorem toInts_listing {segments : List String} {xs : List Int} (h : Listing segments xs)
    (hxs : ∀ x ∈ xs, Numeral.writable x = true) :
    (Value.text (",".intercalate segments)).toInts = .ok xs := by
  show ((Value.segments (",".intercalate segments)).map Value.text).mapM toInt = .ok xs
  rw [segments_intercalate h.comma_not_mem]
  induction h with
  | nil => rfl
  | blank hblank _ ih =>
    rw [List.filter_cons_of_neg (by simp [Text.trim_eq_nil_iff.2 hblank])]
    exact ih hxs
  | @number before behind x segments xs hbefore hbehind _ ih =>
    obtain ⟨hx, hxs⟩ := List.forall_mem_cons.1 hxs
    have hkept : Text.trim (before ++ toString x ++ behind).toList ≠ [] := by
      rw [ne_eq, Text.trim_eq_nil_iff]
      intro hall
      obtain ⟨c, token, hc⟩ := List.exists_cons_of_ne_nil (Numeral.toString_ne_nil x)
      have hmem : c ∈ (toString x).toList := hc ▸ List.mem_cons_self
      have hin : c ∈ (before ++ toString x ++ behind).toList := by
        rw [String.toList_append, String.toList_append, List.mem_append, List.mem_append]
        exact .inl (.inr hmem)
      have hblank := hall c hin
      rw [Text.isBlank_of_mem_toString hmem] at hblank
      cases hblank
    have hread : (Value.text (before ++ toString x ++ behind)).toInt = .ok x := by
      show (Numeral.readShown _ (before ++ toString x ++ behind).toList).mapError _ = _
      rw [String.toList_append, String.toList_append, List.append_assoc,
        Numeral.readShown_toString _ hx hbefore hbehind]
      rfl
    rw [List.filter_cons_of_pos (by simpa using hkept), List.map_cons, List.mapM_cons, hread, ih hxs]
    rfl

end Value

/-- What is entered last under a key counts. -/
theorem Table.insert_insert (t : Table) (name : String) (v w : Value) :
    (t.insert (.text name) v).insert (.text name) w = t.insert (.text name) w := by
  induction t with
  | nil => simp [insert]
  | cons e t ih =>
    obtain ⟨k, u⟩ := e
    by_cases hsame : k.sameKey (.text name) = true
    · simp [insert, hsame]
    · simp [insert, hsame, ih]

namespace Config

/-- Phases as text and phases as a list are alike. -/
theorem alike_insert_listing (d : Table) {segments : List String} {xs : List Int}
    (h : Listing segments xs) (hxs : ∀ x ∈ xs, Numeral.writable x = true) :
    Alike (d.insert (.text "phase_settings") (.text (",".intercalate segments)))
      (d.insert (.text "phase_settings") (.list (xs.map .int))) where
  path := by simp [Table.get?_insert]
  limit := by simp [Table.get?_insert]
  phases := by
    rw [Table.get?_insert, Table.get?_insert, if_pos rfl, if_pos rfl]
    exact (Value.toInts_listing h hxs).trans (toInts_list xs).symm
  lenient := by simp [Table.get?_insert]
  extra := by rw [Table.without_insert, Table.without_insert, if_pos (by decide), if_pos (by decide)]

/-- What is loaded has been read from a table. -/
theorem exists_ofTable_of_load {reader : Reader} {fs : Files} {source : Source} {c : Config}
    (h : load reader fs source = .ok c) : ∃ t, ofTable t = .ok c := by
  cases source with
  | absent => exact ⟨_, h⟩
  | table entries => exact ⟨entries, h⟩
  | file path =>
    rw [load] at h
    cases htable : tableOfFile reader fs path with
    | error e =>
      rw [htable] at h
      cases h
    | ok entries =>
      rw [htable] at h
      exact ⟨entries, h⟩
  | other => cases h

end Config

namespace CommandLine

variable {host : Host} {reader : Config.Reader} {arguments : List String} {o : Options} {fs : Files}

/-- **Other phases on the command line**: they are entered into a table from which the configuration
is read. -/
theorem loadConfig_withPhases {c : Config} (h : loadConfig reader o fs = .ok c) :
    ∃ t, Config.ofTable t = .ok c ∧ ∀ phases, loadConfig reader { o with phases := .value phases } fs =
      Config.ofTable (t.insert (.text "phase_settings") (.text phases)) := by
  unfold loadConfig at h ⊢
  simp only at h ⊢
  generalize hloaded : Config.load reader fs _ = loaded at h ⊢
  cases loaded with
  | error e => cases h
  | ok base =>
    cases hphases : o.phases with
    | absent =>
      rw [hphases] at h
      cases h
      obtain ⟨t, ht⟩ := Config.exists_ofTable_of_load hloaded
      exact ⟨c.toTable, (Config.alike_toTable ht).ofTable_eq.trans ht, fun phases => rfl⟩
    | nothing =>
      rw [hphases] at h
      refine ⟨base.toTable.insert (.text "phase_settings") (.list []), h, fun phases => ?_⟩
      rw [Table.insert_insert]
      rfl
    | value given =>
      rw [hphases] at h
      refine ⟨base.toTable.insert (.text "phase_settings") (.text given), h, fun phases => ?_⟩
      rw [Table.insert_insert]
      rfl

/-- An order that is found is shown if it can be written. -/
theorem Job.status_amplify_iff (job : Job) (wanted : Bool) {best : Chain.Finding}
    (hbest : Chain.search ⟨job.image, job.config.tickLimit⟩ job.config.phases = .ok best) :
    (job.amplify wanted).status = .ok 0 ↔ ∀ x ∈ best.phases, Numeral.writable x = true := by
  rw [← List.all_eq_true, ← Numeral.allWritable]
  unfold amplify
  simp only [hbest]
  split
  · next hall => simp [hall]
  · next hall => simp [hall, crash]

/-- The command ends as its search does. -/
theorem execute_status_of_amplify {found : Files} {place : Place} {job : Job}
    (hparse : Options.parse arguments = .ok o) (hlog : openLog o fs = .ok (place, found))
    (hjob : loadJob host.reader o found = .ok job) (hamplify : o.amplify = true) (stdin : List Char) :
    (execute host arguments fs stdin).status = (job.amplify o.debug).status := by
  simp only [execute, hparse, runLogged, hlog, run, hjob, hamplify, if_true]

/-- **What a search shows**: an order of the phases of the configuration that can be written. -/
theorem execute_searched {stdin : List Char} (hparse : Options.parse arguments = .ok o)
    (hamplify : o.amplify = true) (hstatus : (execute host arguments fs stdin).status = .ok 0) :
    ∃ (place : Place) (found : Files) (job : Job) (best : Chain.Finding),
      openLog o fs = .ok (place, found) ∧ loadJob host.reader o found = .ok job ∧
      Chain.search ⟨job.image, job.config.tickLimit⟩ job.config.phases = .ok best ∧
      (execute host arguments fs stdin).stdout =
        "max signal: " ++ toString best.signal ++ " phases: " ++ commaList best.phases ++ "\n" ∧
      best.phases.Perm job.config.phases ∧ ∀ x ∈ best.phases, Numeral.writable x = true := by
  have hout : execute host arguments fs stdin = runLogged host o fs (Text.unifyNewlines stdin) := by
    simp only [execute, hparse]
  rw [hout] at hstatus ⊢
  cases hlog : openLog o fs with
  | error cause =>
    rw [runLogged, hlog] at hstatus
    cases hstatus
  | ok opened =>
    obtain ⟨place, found⟩ := opened
    cases hjob : loadJob host.reader o found with
    | error ending => cases (runLogged_refused hlog hjob hstatus).1
    | ok job =>
      obtain ⟨hconfig, -⟩ := loadJob_eq_ok_iff.1 hjob
      obtain ⟨best, hbest, hshown⟩ := (runLogged_searched hlog hjob hamplify hstatus).2.best rfl
      obtain ⟨t, ht, -⟩ := loadConfig_withPhases hconfig
      obtain ⟨-, -, -, -, -, hvalid⟩ := Config.ofTable_eq_ok ht
      refine ⟨place, found, job, best, rfl, hjob, hbest, hshown,
        (Chain.search_best hvalid.phases hbest).1, ?_⟩
      rwa [← hout, execute_status_of_amplify hparse hlog hjob hamplify,
        job.status_amplify_iff _ hbest] at hstatus

/-- A list of numbers starts with the first of them. -/
theorem toList_commaList_cons (x : Int) (xs : List Int) :
    ∃ rest, (commaList (x :: xs)).toList = (toString x).toList ++ rest ∧
      (xs ≠ [] → ∃ rest', rest = ',' :: rest') := by
  rw [commaList, String.toList_intercalate, List.map_cons, List.map_cons]
  cases xs with
  | nil => exact ⟨[], by simp⟩
  | cons y xs =>
    refine ⟨_, (List.intercalate_cons_cons ..).trans (List.append_assoc ..), fun _ => ?_⟩
    exact ⟨_, rfl⟩

/-- A list of numbers is written with digits, dashes and commas. -/
theorem mem_commaList {xs : List Int} {c : Char} (h : c ∈ (commaList xs).toList) :
    c = ',' ∨ c = '-' ∨ c.isDigit = true := by
  induction xs with
  | nil => cases h
  | cons x xs ih =>
    rw [commaList, String.toList_intercalate, List.map_cons, List.map_cons] at h
    cases xs with
    | nil =>
      refine .inr (Numeral.mem_toString (x := x) ?_)
      simpa using h
    | cons y xs =>
      have hparts : c ∈ (toString x).toList ++ ',' :: (commaList (y :: xs)).toList := by
        rw [commaList, String.toList_intercalate]
        exact h
      rw [List.mem_append, List.mem_cons] at hparts
      rcases hparts with hx | rfl | hxs
      · exact .inr (Numeral.mem_toString hx)
      · exact .inl rfl
      · exact ih hxs

/-- A list of numbers starts with a dash only if the first of them is negative. -/
theorem toList_commaList_ne {x : Int} (hx : 0 ≤ x) (xs : List Int) (letters : List Char) :
    (commaList (x :: xs)).toList ≠ '-' :: letters := by
  obtain ⟨rest, hrest, -⟩ := toList_commaList_cons x xs
  have hsign := Numeral.readSign_toString x rest
  rw [← hrest, decide_eq_false (by omega)] at hsign
  intro hdash
  rw [hdash] at hsign
  cases hsign

/-- **A list whose first number is negative looks like an option**: it starts with a dash, and the
comma keeps it from being a number. -/
theorem classify_commaList {x : Int} (hx : x < 0) {xs : List Int} (hxs : xs ≠ []) :
    classify (commaList (x :: xs)) = .ok (.unknown (commaList (x :: xs))) := by
  obtain ⟨rest, hrest, hcomma⟩ := toList_commaList_cons x xs
  obtain ⟨behind, rfl⟩ := hcomma hxs
  rw [Numeral.toList_toString_int, if_pos hx] at hrest
  obtain ⟨d, digits, hdigits⟩ := List.exists_cons_of_ne_nil
    (Nat.toDigits_ne_nil (n := x.natAbs) (b := 10))
  have hdigit : ∀ c ∈ d :: digits, c.isDigit = true := fun c hc =>
    Nat.isDigit_of_mem_toDigits (by decide) (by decide) (hdigits ▸ hc)
  rw [hdigits] at hrest
  have hmem : ∀ c : Char, c.isDigit = false → c ≠ ',' → c ≠ '-' → c ∉ (commaList (x :: xs)).toList := by
    intro c hc hcomma hdash hmem
    rcases mem_commaList hmem with h | h | h
    · exact hcomma h
    · exact hdash h
    · rw [hc] at h
      cases h
  have hd := hdigit d List.mem_cons_self
  refine classify_unknown hrest ?_ ?_ (hmem _ (by decide) (by decide) (by decide))
    (hmem _ (by decide) (by decide) (by decide)) ?_
  · rintro rfl
    cases hd
  · rintro rfl
    cases hd
  · have hlast : (commaList (x :: xs)).toList.getLast? ≠ some '\n' := fun h =>
      hmem '\n' (by decide) (by decide) (by decide) (List.mem_of_getLast? h)
    have hspan : ((d :: digits) ++ ',' :: behind).dropWhile (fun c => (Text.digitValue? c).isSome) =
        ',' :: behind := by
      rw [List.dropWhile_append_of_pos fun c hc => Text.digitValue?_of_isDigit (hdigit c hc)]
      exact List.dropWhile_cons_of_neg (by decide)
    have hbody : (commaList (x :: xs)).toList = '-' :: (d :: digits ++ ',' :: behind) := hrest
    simp only [isNegativeNumber, if_neg hlast]
    rw [hbody]
    simp only [hspan]
    rfl

/-- Phases can be given back to the command: it takes them as they are, and they can be put in front
of its arguments if it had no phases there. This is done behind an equals sign, or as an argument of
their own unless they start with a dash: then they are taken for an option. -/
structure TakesBack (reader : Config.Reader) (arguments : List String) (o : Options) (fs : Files)
    (c : Config) (phases : List Int) : Prop where
  accepted : loadConfig reader { o with phases := .value (commaList phases) } fs =
    .ok { c with phases := phases }
  attached : o.phases = .absent → Options.parse (("--phases=" ++ commaList phases) :: arguments) =
    .ok { o with phases := .value (commaList phases) }
  word : o.phases = .absent → (∀ x ∈ phases.head?, 0 ≤ x) →
    Options.parse ("--phases" :: commaList phases :: arguments) =
      .ok { o with phases := .value (commaList phases) }
  dashed : (∃ x ∈ phases.head?, x < 0) →
    Options.parse ("--phases" :: commaList phases :: arguments) = .error (.valueMissing .phases)

/-- **Any order of the phases of a configuration is taken back**, if it can be written. -/
theorem takesBack_of_perm {c : Config} (hparse : Options.parse arguments = .ok o)
    (hconfig : loadConfig reader o fs = .ok c) {phases : List Int}
    (hperm : phases.Perm c.phases) (hphases : ∀ x ∈ phases, Numeral.writable x = true) :
    TakesBack reader arguments o fs c phases := by
  obtain ⟨t, ht, hload⟩ := loadConfig_withPhases hconfig
  obtain ⟨-, -, -, -, -, hvalid⟩ := Config.ofTable_eq_ok ht
  have hlen : 2 ≤ phases.length := hperm.length_eq ▸ hvalid.phases
  have hread : (Value.text (commaList phases)).toInts = .ok phases :=
    Value.toInts_listing (.map_toString phases) hphases
  have hdashes : commaList phases ≠ "--" := by
    -- two dashes alone would be no list of numbers
    intro hdashes
    rw [hdashes] at hread
    cases hread
  refine ⟨?_, fun habsent => ?_, fun habsent hfirst => ?_, ?_⟩
  · rw [hload]
    exact Config.ofTable_insert_phases ht hread hlen (hperm.nodup_iff.2 hvalid.distinct)
  · exact Options.parse_phases_attached hparse habsent hdashes
  · cases phases with
    | nil => cases hlen
    | cons x xs =>
      exact Options.parse_phases_word hparse habsent (toList_commaList_ne (hfirst x rfl) xs)
  · rintro ⟨x, hx, hneg⟩
    cases phases with
    | nil => cases hlen
    | cons y xs =>
      cases hx
      have hmore : xs ≠ [] := by
        rintro rfl
        simp at hlen
      exact Options.parse_phases_unknown hparse hdashes (classify_commaList hneg hmore)

/-- A search whose best order starts with a negative phase: on a host where every configuration has
these phases, and for a program that writes a number and halts. -/
theorem search_negative_first :
    let host : Host :=
      { reader := fun _ => .ok (.table [(.text "phase_settings", .list [.int (-3), .int 7])]) }
    let fs : Files := ⟨[(⟨.above 0, ["p"]⟩, .file [49, 48, 52, 44, 55, 44, 57, 57, 10]),
      (⟨.above 0, ["c"]⟩, .file [])]⟩
    let o : Options := { program := some "p", config := .value "c", amplify := true }
    let job : Job := ⟨{ Config.default with phases := [-3, 7] }, [104, 7, 99]⟩
    (∃ place found, openLog o fs = .ok (place, found) ∧ loadJob host.reader o found = .ok job) ∧
      Chain.search ⟨job.image, job.config.tickLimit⟩ job.config.phases = .ok ⟨7, [-3, 7]⟩ ∧
      (execute host ["p", "--config", "c", "--amplify"] fs []).status = .ok 0 := by
  intro host fs o job
  let found : Files := putText fs ⟨.above 0, ["processor.log"]⟩ ""
  have hlog : openLog o fs = .ok (⟨.above 0, ["processor.log"]⟩, found) := rfl
  have himage : Image.load found "p" = .ok [104, 7, 99] := by
    have hline : firstLine? [49, 48, 52, 44, 55, 44, 57, 57, 10] = some "104,7,99\n".toList := by
      rw [firstLine?, firstLineFrom, dif_neg (by decide)]
      rfl
    have hfile : found.find? "p" = some (.file [49, 48, 52, 44, 55, 44, 57, 57, 10]) := rfl
    simp only [Image.load, hfile, hline]
    rfl
  have hjob : loadJob host.reader o found = .ok job := loadJob_eq_ok_iff.2 ⟨rfl, himage⟩
  have hsearch : Chain.search ⟨job.image, job.config.tickLimit⟩ job.config.phases =
      .ok ⟨7, [-3, 7]⟩ := by
    subst job
    decide +kernel
  refine ⟨⟨_, found, hlog, hjob⟩, hsearch, ?_⟩
  have hparse : Options.parse ["p", "--config", "c", "--amplify"] = .ok o := rfl
  rw [execute_status_of_amplify hparse hlog hjob rfl, job.status_amplify_iff _ hsearch]
  decide

end CommandLine

namespace Config

/-- **Text and list agree, and the order that is shown can be given back.** Take any table, and
numbers that can be written. Phases given as text, with commas between the numbers, blanks around them
and segments that are blank, have the same outcome as phases given as the list of these numbers: the
same configuration, or the same failure. And where the command shows the best order of the phases, it
takes back the list that it shows: behind an equals sign, and as an argument of its own exactly if the
first phase is not negative. -/
theorem load_listing :
    (∀ (reader : Reader) (fs : Files) (d : Table) (segments : List String) (xs : List Int),
      Listing segments xs → (∀ x ∈ xs, Numeral.writable x = true) →
      load reader fs (.table (d.insert (.text "phase_settings") (.text (",".intercalate segments)))) =
        load reader fs (.table (d.insert (.text "phase_settings") (.list (xs.map .int))))) ∧
    (∀ (reader : Reader) (fs : Files) (d : Table) (xs : List Int),
      (∀ x ∈ xs, Numeral.writable x = true) →
      load reader fs (.table (d.insert (.text "phase_settings") (.text (CommandLine.commaList xs)))) =
        load reader fs (.table (d.insert (.text "phase_settings") (.list (xs.map .int))))) ∧
    ∀ (host : CommandLine.Host) (arguments : List String) (o : CommandLine.Options) (fs : Files)
      (stdin : List Char),
      CommandLine.Options.parse arguments = .ok o → o.amplify = true →
      (CommandLine.execute host arguments fs stdin).status = .ok 0 →
      ∃ (place : Place) (found : Files) (job : CommandLine.Job) (best : Chain.Finding),
        CommandLine.openLog o fs = .ok (place, found) ∧
        CommandLine.loadJob host.reader o found = .ok job ∧
        Chain.search ⟨job.image, job.config.tickLimit⟩ job.config.phases = .ok best ∧
        (CommandLine.execute host arguments fs stdin).stdout =
          "max signal: " ++ toString best.signal ++ " phases: " ++
            CommandLine.commaList best.phases ++ "\n" ∧
        CommandLine.TakesBack host.reader arguments o found job.config best.phases := by
  refine ⟨?_, ?_, ?_⟩
  · intro reader fs d segments xs hlisting hxs
    exact (alike_insert_listing d hlisting hxs).ofTable_eq
  · intro reader fs d xs hxs
    exact (alike_insert_listing d (.map_toString xs) hxs).ofTable_eq
  · intro host arguments o fs stdin hparse hamplify hstatus
    obtain ⟨place, found, job, best, hlog, hjob, hbest, hshown, hperm, hwritable⟩ :=
      CommandLine.execute_searched hparse hamplify hstatus
    exact ⟨place, found, job, best, hlog, hjob, hbest, hshown,
      CommandLine.takesBack_of_perm hparse (CommandLine.loadJob_eq_ok_iff.1 hjob).1 hperm hwritable⟩

/-- A text with blanks, an empty segment and a comma at its end; and a search whose order, which starts
with a dash, is taken back behind an equals sign and not behind a space. -/
theorem load_listing_spaced :
    let host : CommandLine.Host :=
      { reader := fun _ => .ok (.table [(.text "phase_settings", .list [.int (-3), .int 7])]) }
    let d : Table := [(.text "tick_limit", .int 5)]
    let fs : Files := ⟨[(⟨.above 0, ["p"]⟩, .file [49, 48, 52, 44, 55, 44, 57, 57, 10]),
      (⟨.above 0, ["c"]⟩, .file [])]⟩
    let o : CommandLine.Options := { program := some "p", config := .value "c", amplify := true }
    load host.reader fs (.table (d.insert (.text "phase_settings") (.text "\u2003-3 ,, 7\t,"))) =
        .ok ⟨"input.txt", 5, [-3, 7], false, []⟩ ∧
      (CommandLine.execute host ["p", "--config", "c", "--amplify"] fs []).status = .ok 0 ∧
      CommandLine.Options.parse ["--phases=-3,7", "p", "--config", "c", "--amplify"] =
        .ok { o with phases := .value "-3,7" } ∧
      CommandLine.Options.parse ["--phases", "-3,7", "p", "--config", "c", "--amplify"] =
        .error (.valueMissing .phases) ∧
      ∃ found, CommandLine.loadConfig host.reader { o with phases := .value "-3,7" } found =
        .ok { default with phases := [-3, 7] } := by
  intro host d fs o
  obtain ⟨htext, -, hback⟩ := load_listing
  have hlisting : Listing ["\u2003" ++ toString (-3 : Int) ++ " ", "", " " ++ toString (7 : Int) ++ "\t",
      ""] [-3, 7] :=
    .number (List.all_eq_true.1 (by decide)) (List.all_eq_true.1 (by decide)) (.blank (by simp)
      (.number (List.all_eq_true.1 (by decide)) (List.all_eq_true.1 (by decide)) (.blank (by simp) .nil)))
  have hjoined : ",".intercalate ["\u2003" ++ toString (-3 : Int) ++ " ", "",
      " " ++ toString (7 : Int) ++ "\t", ""] = "\u2003-3 ,, 7\t," := by decide +kernel
  have hload := htext host.reader fs d _ _ hlisting (by decide)
  rw [hjoined] at hload
  obtain ⟨⟨place, found, hlog, hjob⟩, hsearch, hstatus⟩ := CommandLine.search_negative_first
  obtain ⟨place', found', job', best, hlog', hjob', hsearch', -, htakes⟩ :=
    hback host _ o fs [] rfl rfl hstatus
  cases hlog.symm.trans hlog'
  cases hjob.symm.trans hjob'
  cases hsearch.symm.trans hsearch'
  exact ⟨hload.trans rfl, hstatus, htakes.attached rfl, htakes.dashed ⟨-3, rfl, by decide⟩, found,
    htakes.accepted⟩

/-- **A list that starts with a dash is no argument of its own.** The command shows the order, but it
takes the list for an option if it is given back behind a space. -/
theorem listing_dashed :
    let host : CommandLine.Host :=
      { reader := fun _ => .ok (.table [(.text "phase_settings", .list [.int (-3), .int 7])]) }
    let fs : Files := ⟨[(⟨.above 0, ["p"]⟩, .file [49, 48, 52, 44, 55, 44, 57, 57, 10]),
      (⟨.above 0, ["c"]⟩, .file [])]⟩
    let again := ["p", "--config", "c", "--amplify", "--phases", "-3,7"]
    (CommandLine.execute host ["p", "--config", "c", "--amplify"] fs []).status = .ok 0 ∧
      (CommandLine.execute host ["p", "--config", "c", "--amplify"] fs []).stdout =
        "max signal: 7 phases: -3,7\n" ∧
      CommandLine.Options.parse again = .error (.valueMissing .phases) ∧
      (CommandLine.execute host again fs []).status = .ok 2 := by
  intro host fs again
  obtain ⟨⟨place, found, hlog, hjob⟩, hsearch, hstatus⟩ := CommandLine.search_negative_first
  refine ⟨hstatus, ?_, rfl, rfl⟩
  obtain ⟨place', found', job', best, hlog', hjob', hsearch', hshown, -⟩ :=
    CommandLine.execute_searched
      (show CommandLine.Options.parse ["p", "--config", "c", "--amplify"] = _ from rfl) rfl hstatus
  cases hlog.symm.trans hlog'
  cases hjob.symm.trans hjob'
  cases hsearch.symm.trans hsearch'
  exact hshown.trans (by decide +kernel)

end Config

end Intcode
