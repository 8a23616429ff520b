import Intcode.Proofs.Lockstep
import Intcode.Proofs.NumberLines
import Intcode.Proofs.WordMemory

/-!
# Runs on a terminal

A run on a terminal without a prompt against the run on a queue that holds the
words on the lines of its text. The two go in lockstep to the end: a line is read
where a value is taken, and a line is shown where a value is collected.

* `Transcript.lockstep`: a terminal keeps up with a queue.
* `run_terminal`: the run on a terminal is that on the queue, and what it shows can
  be given to another machine in place of the values.
-/

namespace Intcode

/-- A terminal that was given `text` is where a queue is that held `vs`: the same number of lines and
of values is gone, and what was written is shown. -/
structure Transcribes (text : List Char) (vs : List Int) (q : Queue) (t : Terminal) : Prop where
  prompt : t.prompt = ""
  holds : Terminal.Holds t.unread q.pending
  consumed : ∃ k, k ≤ vs.length ∧ q.pending = vs.drop k ∧
    Text.lines t.unread = (Text.lines text).drop k
  shown : t.shown = Terminal.written q.outputs.toList

/-- The channels of a run on a queue and of its transcript. -/
def Transcript (text : List Char) (vs : List Int) (c d : Channel) : Prop :=
  ∃ q t, c = .queue q ∧ d = .terminal t ∧ Transcribes text vs q t

variable {text : List Char} {vs : List Int}

theorem Transcribes.read {q : Queue} {t : Terminal} (h : Transcribes text vs q t) :
    SameOutcome q.read.1 t.read.1 ∧ Transcribes text vs q.read.2 t.read.2 := by
  obtain ⟨hprompt, hholds, ⟨k, hk, hpend, hlines⟩, hshown⟩ := h
  obtain ⟨pending, outputs⟩ := q
  obtain ⟨unread, prompt, shown⟩ := t
  simp only at hprompt hpend hlines hshown hholds
  subst hprompt
  have hshown' : shown ++ "" = Terminal.written outputs.toList := by rw [String.append_empty, hshown]
  by_cases hu : unread = []
  · -- no line is left, and no value either
    subst hu
    have hp : pending = [] := by simpa [Terminal.Holds] using hholds
    subst hp
    exact ⟨rfl, rfl, hholds, ⟨k, hk, hpend, hlines⟩, hshown'⟩
  · have hcons := Text.lines_of_ne_nil hu
    rw [Terminal.Holds, hcons] at hholds
    cases hholds with
    | @cons _ v _ rest hv hrest =>
      have hlt : k < vs.length := by
        by_contra hge
        rw [List.drop_eq_nil_of_le (by omega)] at hpend
        cases hpend
      have hread : Terminal.readLine (Text.takeLine unread) = .ok v := by
        simp only [Terminal.readLine, hv]
      refine ⟨?_, rfl, hrest, ⟨k + 1, hlt, ?_, ?_⟩, hshown'⟩
      · simp [Queue.read, Terminal.read, hu, hread, SameOutcome]
      · rw [← List.tail_drop, ← hpend]; rfl
      · rw [← List.tail_drop, ← hlines, hcons]; rfl

theorem Transcribes.write {q : Queue} {t : Terminal} (h : Transcribes text vs q t) {v : Int}
    (hv : Numeral.writable v = true) :
    (t.write v).1 = .ok () ∧ Transcribes text vs (q.write v) (t.write v).2 := by
  rw [Terminal.write, if_pos hv]
  refine ⟨rfl, h.prompt, h.holds, h.consumed, ?_⟩
  simp [Queue.write, h.shown, Terminal.written, String.append_assoc]

/-- **A terminal keeps up with a queue.** -/
theorem Transcript.lockstep (text : List Char) (vs : List Int) :
    Channel.Lockstep (Transcript text vs) fun _ _ => False where
  read := by
    rintro c d ⟨q, t, rfl, rfl, h⟩
    exact ⟨h.read.1, _, _, rfl, rfl, h.read.2⟩
  write := by
    rintro c d v hv ⟨q, t, rfl, rfl, h⟩
    obtain ⟨hok, hkept⟩ := h.write (Word.writable_of_inRange hv)
    exact ⟨rfl, .inl ⟨hok, _, _, rfl, rfl, hkept⟩⟩
  refused_read := False.elim
  refused_write := fun _ => False.elim

/-- The unread text is what the lines not consumed make up. -/
theorem Transcribes.unread {q : Queue} {t : Terminal} (h : Transcribes text vs q t) :
    q.pending = vs.drop (vs.length - q.pending.length) ∧
      t.unread = ((Text.lines text).drop (vs.length - q.pending.length)).flatten := by
  obtain ⟨k, hk, hpend, hlines⟩ := h.consumed
  have hcount : vs.length - q.pending.length = k := by
    rw [hpend, List.length_drop]; omega
  rw [hcount, ← hlines, Text.flatten_lines]
  exact ⟨hpend, rfl⟩

namespace Machine

/-- A machine on a text stands beside the machine on the words of its lines. -/
theorem boot_beside (image : List Int) (L : Int) (lenient : Bool) (h : Terminal.Holds text vs) :
    Beside (Transcript text vs) (boot image (.queue (.ofInputs vs)) L lenient)
      (boot image (.terminal { unread := text }) L lenient) :=
  { memory := rfl
    ip := rfl
    tick := rfl
    tickLimit := rfl
    status := rfl
    channel := ⟨_, _, rfl, rfl, rfl, h, ⟨0, Nat.zero_le _, rfl, rfl⟩, rfl⟩
    words := Memory.wordy_ofImage image }

/-- **Terminals stand in for queues.** Where the lines of a text are words, the run on the text is at
every step in the state of the run on those words, and ends as that one does. What it shows are the
outputs, one a line, and what it leaves unread are the lines that were not consumed. What it shows is
such a text again: another machine is at every step in the state in which the outputs themselves put
it. -/
theorem run_terminal (image : List Int) (L : Int) (lenient : Bool) (h : Terminal.Holds text vs) :
    let Q := boot image (.queue (.ofInputs vs)) L lenient
    let T := boot image (.terminal { unread := text }) L lenient
    (∀ n, SameState (Q.after n) (T.after n)) ∧
      SameOutcome Q.run.1 T.run.1 ∧ SameState Q.run.2 T.run.2 ∧
      ∃ q t, Q.run.2.channel = .queue q ∧ T.run.2.channel = .terminal t ∧
        t.shown = String.join (q.outputs.toList.map fun v => toString v ++ "\n") ∧
        q.pending = vs.drop (vs.length - q.pending.length) ∧
        t.unread = ((Text.lines text).drop (vs.length - q.pending.length)).flatten ∧
        Terminal.Holds t.shown.toList q.outputs.toList ∧
        ∀ (image' : List Int) (L' : Int) (lenient' : Bool) (n : Nat),
          SameState ((boot image' (.queue (.ofInputs q.outputs.toList)) L' lenient').after n)
            ((boot image' (.terminal { unread := t.shown.toList }) L' lenient').after n) := by
  intro Q T
  have hb := boot_beside image L lenient h
  have hlock := Transcript.lockstep text vs
  obtain ⟨k, -, hQ⟩ := exists_runs Q
  -- a terminal refuses nothing
  rcases hQ.beside hlock hb with ⟨s, hT, hsame, hend⟩ | ⟨j, s, e, -, -, href⟩
  swap
  · exact href.elim
  have hs : T.run = s := hT.run_eq
  rw [hs]
  obtain ⟨q, t, hq, ht, htr⟩ := hend.channel
  have hwords : ∀ v ∈ q.outputs.toList, Word.InRange v := by
    intro v hv
    rw [hQ.snd_eq_after] at hq
    exact (after_wordy image vs L lenient k).outputs q hq v (Array.mem_toList_iff.1 hv)
  have hshown : Terminal.Holds t.shown.toList q.outputs.toList := by
    rw [htr.shown]; exact Terminal.holds_written hwords
  refine ⟨fun n => (after_beside hlock hb n).sameState, hsame, hend.sameState, q, t, hq, ht,
    htr.shown, htr.unread.1, htr.unread.2, hshown, ?_⟩
  intro image' L' lenient' n
  exact (after_beside (Transcript.lockstep _ _) (boot_beside image' L' lenient' hshown) n).sameState

/-- A line is read, blanks and all, and its number is shown; the last line, which has no line feed, is
left. -/
theorem run_terminal_echo :
    Terminal.Holds " 7\n-8".toList [7, -8] ∧
      ∃ t, (boot [3, 0, 4, 0, 99] (.terminal { unread := " 7\n-8".toList }) 9 false).run.2.channel =
          .terminal t ∧
        t.shown = "7\n" ∧ t.unread = "-8".toList ∧ Terminal.Holds t.shown.toList [7] := by
  have hlines : Text.lines " 7\n-8".toList = [" 7\n".toList, "-8".toList] := by
    simp [Text.lines_of_ne_nil, Text.takeLine, Text.dropLine]
  have hholds : Terminal.Holds " 7\n-8".toList [7, -8] := by
    rw [Terminal.Holds, hlines]
    exact .cons rfl (.cons rfl .nil)
  have hqueue : (boot [3, 0, 4, 0, 99] (.queue (.ofInputs [7, -8])) 9 false).run.2.channel =
      .queue ⟨[-8], #[7]⟩ := by rfl
  obtain ⟨-, -, -, q, t, hq, ht, hshown, -, hunread, hheld, -⟩ :=
    run_terminal [3, 0, 4, 0, 99] 9 false hholds
  rw [hqueue] at hq
  cases hq
  exact ⟨hholds, t, ht, hshown.trans rfl, by rw [hunread, hlines]; rfl, hheld⟩

end Machine

end Intcode
