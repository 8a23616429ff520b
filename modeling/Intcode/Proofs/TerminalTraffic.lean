import Intcode.Proofs.NumberLines
import Intcode.Proofs.Traffic

/-!
# What passes through a terminal

A terminal can be called in any order, and calls may go on after some that failed. Each
read takes one whole line off the text, whether there is a word on it or not, and once the
text is used up no read takes anything. What is shown is the prompt for each read and a
line for each write, in order. A write of a number that is too long to be written fails,
and shows nothing.

* `Text.FirstLine`: the first line of a text and what follows it, said by the line feeds.
* `Channel.consumed`: what calls take off the text. `Call.found?` is the answer of a read
  that finds a line, and `Call.shows` is what a call shows, if it can be written.
* `Terminal.call_eq`: what one call does.
* `Terminal.serve_eq`, `Terminal.consumed_eq`, `Terminal.found_eq`: what any number of
  calls do.
* `Channel.serve_terminal`: a terminal takes and shows whole lines.
* `Channel.serve_unwritten`: a write that shows no line.
-/

namespace Intcode

namespace Text

/-- The first line of a text, and the rest behind it: the line ends with the first line feed, or there
is none and the line is all of the text. -/
structure FirstLine (text line rest : List Char) : Prop where
  parts : line ++ rest = text
  ends : (∃ w, '\n' ∉ w ∧ line = w ++ ['\n']) ∨ '\n' ∉ line ∧ rest = []

theorem firstLine_takeLine (s : List Char) : FirstLine s (takeLine s) (dropLine s) := by
  refine ⟨takeLine_append_dropLine s, ?_⟩
  induction s with
  | nil => exact .inr ⟨by simp [takeLine], rfl⟩
  | cons c s ih =>
    by_cases hc : c = '\n'
    · subst hc
      exact .inl ⟨[], by simp, rfl⟩
    · have hne : '\n' ≠ c := Ne.symm hc
      simp only [takeLine, dropLine, hc, if_false]
      rcases ih with ⟨w, hw, hline⟩ | ⟨hline, hrest⟩
      · exact .inl ⟨c :: w, by simp [hne, hw], by rw [hline, List.cons_append]⟩
      · exact .inr ⟨by simp [hne, hline], hrest⟩

end Text

/-- What a call is to show on a terminal. -/
def Call.shows (prompt : String) : Call → String
  | read => prompt
  | write v => toString v ++ "\n"
  | push _ | finish => ""

/-- Can what a call is to show be written? -/
def Call.fits : Call → Bool
  | write v => Numeral.writable v
  | _ => true

/-- What a read answers that finds a line. -/
def Call.found? : Call × Call.Answer → Option Call.Answer
  | (read, .error .endOfStream) => none
  | (read, answer) => some answer
  | _ => none

namespace Channel

/-- What a call takes off the text of a terminal. -/
def taken (c : Channel) (call : Call) : List Char :=
  c.unread.take (c.unread.length - (c.call call).2.unread.length)

/-- What a sequence of calls takes off the text of a terminal. -/
def consumed (c : Channel) : List Call → List Char
  | [] => []
  | call :: calls => c.taken call ++ consumed (c.call call).2 calls

theorem taken_of_append {c : Channel} {call : Call} {piece : List Char}
    (h : piece ++ (c.call call).2.unread = c.unread) : c.taken call = piece := by
  have hlen : c.unread.length - (c.call call).2.unread.length = piece.length := by
    rw [← h, List.length_append]
    omega
  rw [taken, hlen, ← h, List.take_left]

end Channel

namespace Terminal

/-- What a read answers on a line. -/
def answer (line : List Char) : Call.Answer := (readLine line).map some

/-- A line is a word, or it is refused. -/
theorem readLine_cases (line : List Char) :
    (∃ v, readLine line = .ok v) ∨ ∃ cause, readLine line = .error (.badLine cause) := by
  unfold readLine
  cases Word.parse (String.ofList (Text.trim line)) with
  | ok v => exact .inl ⟨v, rfl⟩
  | error cause => exact .inr ⟨cause, rfl⟩

theorem answer_eq_ok_iff {line : List Char} {v : Int} :
    answer line = .ok (some v) ↔ Word.parse (String.ofList (Text.trim line)) = .ok v := by
  unfold answer readLine
  cases Word.parse (String.ofList (Text.trim line)) with
  | ok w => simp [Except.map]
  | error cause => simp [Except.map]

/-- Where there is a line, a read answers what is on it. -/
theorem read_of_ne_nil {t : Terminal} (h : t.unread ≠ []) :
    t.read.1 = readLine (Text.takeLine t.unread) := if_neg h

/-- Where there is none, a read is out of input and takes nothing. -/
theorem read_of_nil {t : Terminal} (h : t.unread = []) :
    t.read.1 = .error .endOfStream ∧ t.read.2.unread = [] := by
  refine ⟨if_pos h, ?_⟩
  show Text.dropLine t.unread = []
  rw [h]
  rfl

/-- A read finds a line unless all is read. -/
theorem found?_read (t : Terminal) : Call.found? (.read, t.read.1.map some) =
    if t.unread = [] then none else some (answer (Text.takeLine t.unread)) := by
  by_cases h : t.unread = []
  · rw [if_pos h, (read_of_nil h).1]
    rfl
  · rw [if_neg h, read_of_ne_nil h, answer]
    rcases readLine_cases (Text.takeLine t.unread) with ⟨v, hv⟩ | ⟨cause, hcause⟩
    · rw [hv]
      rfl
    · rw [hcause]
      rfl

/-- **One call of a terminal**: a read takes a line off the text, and no other call does. -/
theorem call_eq (t : Terminal) (call : Call) :
    ((Channel.terminal t).call call).2 = .terminal
      { t with
        unread := if call = .read then Text.dropLine t.unread else t.unread
        shown := t.shown ++ if call.fits then call.shows t.prompt else "" } := by
  cases call with
  | read => rfl
  | write v =>
    cases hv : Numeral.writable v <;>
      simp [Channel.call, Channel.write, write, Call.shows, Call.fits, hv, String.append_assoc]
  | push v => simp [Channel.call, Channel.push, Call.shows, Call.fits]
  | finish => simp [Channel.call, Call.shows, Call.fits]

/-- A write fails if the number cannot be written, and then does nothing. -/
theorem write_of_unwritable {t : Terminal} {v : Int} (h : Numeral.writable v = false) :
    ∃ e, t.write v = (.error e, t) ∧ e.kind = .unwritten := by
  refine ⟨.lineTooLong v, if_neg (by rw [h]; simp), ?_⟩
  rw [Fault.kind_eq_unwritten_iff]
  simp [Fault.writable, Fault.numbers, Numeral.allWritable, h]

theorem taken_eq (t : Terminal) (call : Call) : (Channel.terminal t).taken call =
    if call = .read then Text.takeLine t.unread else [] := by
  apply Channel.taken_of_append
  rw [call_eq]
  by_cases h : call = .read
  · simp only [h, if_true]
    exact Text.takeLine_append_dropLine t.unread
  · simp only [h, if_false]
    rfl

/-- **Any number of calls of a terminal**: as many lines are gone as there were reads. -/
theorem serve_eq (t : Terminal) (calls : List Call) :
    (Channel.terminal t).serve calls = .terminal
      { t with
        unread := ((Text.lines t.unread).drop (calls.count .read)).flatten
        shown := t.shown ++ String.join ((calls.filter Call.fits).map (Call.shows t.prompt)) } := by
  induction calls generalizing t with
  | nil => simp [Channel.serve, Text.flatten_lines]
  | cons call calls ih =>
    rw [Channel.serve, call_eq, ih]
    by_cases h : call = .read
    · have hfits : Call.read.fits = true := rfl
      simp [h, hfits, Text.lines_dropLine, String.append_assoc]
    · cases hfits : call.fits <;> simp [h, hfits, String.append_assoc]

theorem serve_of_nil {t : Terminal} (h : t.unread = []) (calls : List Call) :
    ∃ t', (Channel.terminal t).serve calls = .terminal t' ∧ t'.unread = [] := by
  refine ⟨_, serve_eq t calls, ?_⟩
  rw [h, Text.lines_nil, List.drop_nil, List.flatten_nil]

/-- What calls take are the first lines of the text. -/
theorem consumed_eq (t : Terminal) (calls : List Call) : (Channel.terminal t).consumed calls =
    ((Text.lines t.unread).take (calls.count .read)).flatten := by
  induction calls generalizing t with
  | nil => simp [Channel.consumed]
  | cons call calls ih =>
    rw [Channel.consumed, taken_eq, call_eq, ih]
    by_cases h : call = .read
    · by_cases hnil : t.unread = []
      · simp [h, hnil, Text.takeLine, Text.dropLine]
      · simp [h, Text.lines_of_ne_nil hnil]
    · simp [h]

/-- What reads answer is what is on the first lines of the text, as long as there are lines. -/
theorem found_eq (t : Terminal) (calls : List Call) :
    ((Channel.terminal t).history calls).filterMap Call.found? =
      ((Text.lines t.unread).take (calls.count .read)).map answer := by
  induction calls generalizing t with
  | nil => simp [Channel.history]
  | cons call calls ih =>
    rw [Channel.history, call_eq, List.filterMap_cons, ih]
    by_cases h : call = .read
    · subst h
      simp only [Channel.call, Channel.read]
      by_cases hnil : t.unread = []
      · simp [found?_read, hnil, Text.dropLine]
      · simp [found?_read, hnil, Text.lines_of_ne_nil hnil]
    · have hother : Call.found? (call, ((Channel.terminal t).call call).1) = none := by
        cases call with
        | read => exact absurd rfl h
        | _ => rfl
      simp [hother, h]

end Terminal

/-- **A terminal takes and shows whole lines.** Take a terminal with a text, of which nothing was read,
and read and write in any order, going on after calls that fail.

* What was consumed, followed by what is unread, is the text; and what was consumed are the first lines
  of the text, one for each read.
* The next read takes exactly one line if there is one, whether it returns a word or refuses the line.
* If all is consumed, it is out of input and takes nothing, and so are all reads after any further
  calls.
* The `k`-th read that finds a line returns a word exactly if that word is on the `k`-th line of the
  text, blanks around it aside.
* What is shown is the prompt for each read and a line for each write, in the order of the calls, but
  for writes of numbers that cannot be written. Such a write fails, and leaves the terminal as it is;
  any other succeeds. -/
theorem Channel.serve_terminal (text : List Char) (prompt : String) (calls : List Call) :
    let c := Channel.terminal { unread := text, prompt }
    let found := (c.history calls).filterMap Call.found?
    ∃ t, c.serve calls = .terminal t ∧
      c.consumed calls ++ t.unread = text ∧
      c.consumed calls = ((Text.lines text).take (calls.count .read)).flatten ∧
      (t.unread ≠ [] →
        Text.FirstLine t.unread ((Channel.terminal t).taken .read) t.read.2.unread ∧
        ((∃ v, t.read.1 = .ok v) ∨ ∃ e, t.read.1 = .error e ∧ e.kind = .channel)) ∧
      (t.unread = [] → ∀ more, ∃ t', (Channel.terminal t).serve more = .terminal t' ∧
        (∃ e, t'.read.1 = .error e ∧ e.kind = .exhausted) ∧ t'.unread = [] ∧
        t'.read.2.unread = []) ∧
      found.length = min (calls.count .read) (Text.lines text).length ∧
      (∀ (k : Nat) (answer : Call.Answer), found[k]? = some answer →
        ∃ line, (Text.lines text)[k]? = some line ∧
          ∀ v, answer = .ok (some v) ↔ Word.parse (String.ofList (Text.trim line)) = .ok v) ∧
      t.shown = String.join ((calls.filter Call.fits).map (Call.shows prompt)) ∧
      (∀ v, Numeral.writable v = true → (t.write v).1 = .ok ()) ∧
      ∀ v, Numeral.writable v = false → ∃ e, t.write v = (.error e, t) ∧ e.kind = .unwritten := by
  intro c found
  have hfound : found = ((Text.lines text).take (calls.count .read)).map Terminal.answer :=
    Terminal.found_eq _ calls
  have hconsumed : c.consumed calls = ((Text.lines text).take (calls.count .read)).flatten :=
    Terminal.consumed_eq _ calls
  refine ⟨_, Terminal.serve_eq _ calls, ?_, hconsumed, ?_, ?_, ?_, ?_, String.empty_append, ?_,
    fun v => Terminal.write_of_unwritable⟩
  · rw [hconsumed, ← List.flatten_append, List.take_append_drop, Text.flatten_lines]
  · intro hne
    constructor
    · rw [Terminal.taken_eq, if_pos rfl]
      exact Text.firstLine_takeLine _
    · rw [Terminal.read_of_ne_nil hne]
      rcases Terminal.readLine_cases _ with hv | ⟨cause, hcause⟩
      · exact .inl hv
      · exact .inr ⟨_, hcause, rfl⟩
  · intro hnil more
    obtain ⟨t', ht', hnil'⟩ := Terminal.serve_of_nil hnil more
    obtain ⟨hread, hrest⟩ := Terminal.read_of_nil hnil'
    exact ⟨t', ht', ⟨_, hread, rfl⟩, hnil', hrest⟩
  · rw [hfound, List.length_map, List.length_take]
  · intro k answer hk
    rw [hfound, List.getElem?_map, Option.map_eq_some_iff] at hk
    obtain ⟨line, hline, rfl⟩ := hk
    have hplace : (Text.lines text)[k]? = some line := by
      rw [List.getElem?_take] at hline
      split at hline
      · exact hline
      · cases hline
    exact ⟨line, hplace, fun v => Terminal.answer_eq_ok_iff⟩
  · intro v hv
    simp only [Terminal.write, hv, if_true]

/-- A write of a number that cannot be written shows no line. -/
theorem Terminal.shown_of_unwritable {v : Int} (h : Numeral.writable v = false) :
    ∃ t, (Channel.terminal { unread := [] }).serve [.write v] = .terminal t ∧
      t.shown ≠ String.join ([Call.write v].map (Call.shows "")) := by
  have hfits : [Call.write v].filter Call.fits = [] := by simp [Call.fits, h]
  refine ⟨_, Terminal.serve_eq _ _, ?_⟩
  rw [hfits]
  intro hshown
  have hnewline : "\n".length = 1 := rfl
  have hempty := congrArg String.length hshown
  simp [Call.shows, hnewline] at hempty

/-- **A write that shows no line**: the number has one digit more than can be written. -/
theorem Channel.serve_unwritten :
    let v : Int := Nat.pow 10 Numeral.maxDigits
    ∃ t, (Channel.terminal { unread := [] }).serve [.write v] = .terminal t ∧
      t.shown ≠ String.join ([Call.write v].map (Call.shows "")) :=
  Terminal.shown_of_unwritable Numeral.writable_pow

end Intcode
