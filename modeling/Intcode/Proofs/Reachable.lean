import Intcode.Proofs.Exchange
import Intcode.Proofs.FailedStep
import Intcode.Proofs.Session

/-!
# Machines that are only stepped and run

A session may do anything to a machine. Where it only steps and runs the machine,
more can be said of it: only words are written to the channel, the pointer strays
from memory through a jump alone, a cause is recorded exactly if the machine has
failed, and a machine that has halted still points to its halt instruction.

* `step_pointer`: where a step goes on.
* `step_orderly`: what a step keeps of status, cause and pointer.
* `driven_invariant`: all of it, at every point of such a session.
-/

namespace Intcode.Machine

variable {m m' : Machine}

/-- Does the next step take a jump to `target`? -/
def Jumps (m : Machine) (target : Int) : Prop :=
  m.status = .running ∧ ∃ sense condition place c, m.fetch = .ok (.jump sense condition place) ∧
    m.load condition = .ok c ∧ decide (c ≠ 0) = sense ∧ m.load place = .ok target

/-- A jump goes to a word. -/
theorem Jumps.inRange {target : Int} (h : m.Jumps target) (hm : m.memory.Wordy) :
    Word.InRange target := by
  obtain ⟨-, sense, condition, place, c, hf, -, -, hl⟩ := h
  exact Instruction.load_wordy hm (decode_of_fetch hf) (by simp [Instruction.operands]) hl

/-- **Where a step goes on**: behind the instruction, at the target of a jump that is taken, or where
it is, if it halts. -/
theorem step_pointer {s : Status} (hs : m.status = .running) (h : m.step = (.ok s, m')) :
    ∃ i, m.fetch = .ok i ∧
      (m'.ip = m.ip + i.length ∨ m.Jumps m'.ip ∨ i = .halt ∧ m'.ip = m.ip) := by
  obtain ⟨m₁, ha, hm⟩ := act_of_step_ok hs (by rw [h])
  rw [h] at hm
  have hip : m'.ip = m₁.ip := by cases hm; rfl
  obtain ⟨i, hf, hi⟩ := fetch_of_next (m := m) (by rintro e hn; rw [hn] at ha; cases ha)
  refine ⟨i, hf, ?_⟩
  rw [hip]
  cases hn : m.next with
  | refuse e => rw [hn] at ha; cases ha
  | put address value next =>
    rw [hn] at ha hi
    obtain ⟨op, left, right, dest, a, b, -, -, -, -, -, hnext⟩ := hi
    cases ha
    exact .inl hnext
  | take target next =>
    rw [hn] at ha hi
    obtain ⟨dest, -, -, hnext⟩ := hi
    simp only [act] at ha
    split at ha <;> cases ha
    exact .inl hnext
  | emit value next =>
    rw [hn] at ha hi
    obtain ⟨source, -, -, hnext⟩ := hi
    simp only [act] at ha
    split at ha <;> cases ha
    exact .inl hnext
  | goto next =>
    rw [hn] at ha hi
    obtain ⟨sense, condition, target, c, rfl, hc, hnext⟩ := hi
    cases ha
    by_cases htaken : decide (c ≠ 0) = sense
    · rw [if_pos htaken] at hnext
      exact .inr (.inl ⟨hs, sense, condition, target, c, hf, hc, htaken, hnext⟩)
    · rw [if_neg htaken] at hnext
      exact .inl hnext
  | stop =>
    rw [hn] at ha hi
    cases ha
    exact .inr (.inr ⟨hi, rfl⟩)

/-- **The pointer leaves memory through a jump alone.** -/
theorem after_pointer (h : m.Sound) (h0 : 0 ≤ m.ip ∧ m.ip ≤ m.memory.size) (n : Nat) :
    0 ≤ (m.after n).ip ∧ (m.after n).ip ≤ (m.after n).memory.size ∨
      ∃ k < n, (m.after k).Jumps (m.after n).ip := by
  induction n with
  | zero => exact .inl h0
  | succ n ih =>
    have hsize := (step_sound (after_sound h n).1).2.size
    rw [after_succ]
    -- a step that leaves the pointer alone leaves it where a jump has put it
    have hstay : (m.after n).step.2.ip = (m.after n).ip →
        0 ≤ (m.after n).step.2.ip ∧ (m.after n).step.2.ip ≤ (m.after n).step.2.memory.size ∨
          ∃ k < n + 1, (m.after k).Jumps (m.after n).step.2.ip := by
      intro hip
      rw [hip, hsize]
      rcases ih with hin | ⟨k, hk, hjump⟩
      · exact .inl hin
      · exact .inr ⟨k, by omega, hjump⟩
    by_cases hs : (m.after n).status = .running
    swap
    · exact hstay (by rw [step_of_stopped hs])
    obtain ⟨m₁, ha, hm⟩ | ⟨e, m₁, ha, hm⟩ := step_cases hs
    · obtain ⟨i, hf, hip | hjump | ⟨-, hip⟩⟩ := step_pointer hs hm
      · have hfits := Instruction.decode_fits (decode_of_fetch hf)
        have hcells : (m.after n).memory.size = (m.after n).memory.cells.size := rfl
        rw [hm] at hsize ⊢
        left
        rw [hip, hsize]
        omega
      · rw [hm]
        exact .inr ⟨n, by omega, hjump⟩
      · exact hstay (by rw [hm, hip])
    · apply hstay
      rw [hm, fail_ip]
      obtain ⟨-, rfl⟩ | ⟨target, next, -, rfl, -⟩ := act_failed ha <;> rfl

/-- What holds of a machine that is only stepped and run. -/
structure Orderly (m : Machine) : Prop where
  sound : m.Sound
  errored : m.status = .errored ↔ ∃ e, m.error = some e
  halted : m.status = .halted → Instruction.decode m.memory.cells m.ip = .ok .halt

theorem decode_of_stop (h : m.next = .stop) :
    Instruction.decode m.memory.cells m.ip = .ok .halt := by
  obtain ⟨i, hf, hi⟩ := fetch_of_next (m := m) (by rw [h]; simp)
  rw [h] at hi
  have hhalt : i = .halt := hi
  rw [← hhalt]
  exact decode_of_fetch hf

/-- **A step keeps a machine orderly.** -/
theorem step_orderly (h : m.Orderly) : m.step.2.Orderly := by
  by_cases hs : m.status = .running
  swap
  · rw [step_of_stopped hs]
    exact h
  have hsound := (step_sound h.sound).1
  obtain ⟨m₁, ha, hm⟩ | ⟨e, m₁, ha, hm⟩ := step_cases hs
  · rw [hm] at hsound ⊢
    have herror := act_error_eq m m.next
    have hstatus := act_status m m.next
    rw [ha] at herror hstatus
    simp only at herror hstatus
    -- the machine was running, so no cause was recorded, and none is now
    have hnone : ¬ ∃ e, m₁.error = some e := by
      rw [herror, ← h.errored, hs]
      simp
    rcases hstatus with hsame | ⟨hstop, hact⟩
    · have hrun : m₁.status = .running := hsame.trans hs
      refine ⟨hsound, ?_, ?_⟩
      · simp only [hrun, hnone, reduceCtorEq]
      · simp only [hrun, reduceCtorEq, false_implies]
    · have hdecode := decode_of_stop hstop
      cases hact
      refine ⟨hsound, ?_, fun _ => hdecode⟩
      simp only [hnone, reduceCtorEq]
  · rw [hm] at hsound ⊢
    by_cases hw : e.writable = true
    · rw [fail_of_writable hw] at hsound ⊢
      refine ⟨hsound, ⟨fun _ => ⟨e, rfl⟩, fun _ => rfl⟩, ?_⟩
      intro hhalt
      cases hhalt
    · -- no cause is recorded, and the machine is running as before
      rw [fail_of_unwritable (Bool.not_eq_true _ ▸ hw)] at hsound ⊢
      have hkept : m₁.status = m.status ∧ m₁.error = m.error := by
        obtain ⟨-, rfl⟩ | ⟨target, next, -, rfl, -⟩ := act_failed ha <;> exact ⟨rfl, rfl⟩
      refine ⟨hsound, ?_, ?_⟩
      · rw [hkept.1, hkept.2]
        exact h.errored
      · rw [hkept.1, hs]
        intro hhalt
        cases hhalt

theorem boot_orderly (image : List Int) (channel : Channel) (L : Int) (lenient : Bool) :
    (boot image channel L lenient).Orderly := by
  refine ⟨boot_sound image channel L lenient, ?_, ?_⟩
  · simp [boot]
  · intro hs
    cases hs

theorem exchange?_inRange (h : m.memory.Wordy) {v : Int} {outcome : Except Fault Unit}
    (hx : m.exchange? = some (.write v outcome)) : Word.InRange v := by
  unfold exchange? at hx
  split at hx
  · cases hx
  · next source _ hf =>
    cases hl : m.load source with
    | error e => rw [hl] at hx; cases hx
    | ok w =>
      rw [hl] at hx
      cases hx
      exact Instruction.load_wordy h (decode_of_fetch hf) (by simp [Instruction.operands]) hl
  · cases hx

/-- **Only words are written to the channel.** -/
theorem exchanges_inRange (h : m.Sound) (n : Nat) {v : Int} {outcome : Except Fault Unit}
    (hx : Exchange.write v outcome ∈ m.exchanges n) : Word.InRange v := by
  obtain ⟨k, -, hk⟩ := mem_exchanges_iff.1 hx
  exact exchange?_inRange (after_sound h k).1.cells hk

/-- Steps and runs are steps. -/
theorem session_eq_after {commands : List Command} (h : ∀ c ∈ commands, c = .step ∨ c = .run) :
    ∃ n, m.session commands = m.after n := by
  induction commands generalizing m with
  | nil => exact ⟨0, rfl⟩
  | cons c commands ih =>
    have hone : ∃ j, (m.perform c).2 = m.after j := by
      rcases h c List.mem_cons_self with rfl | rfl
      · exact ⟨1, rfl⟩
      · obtain ⟨j, -, hruns⟩ := exists_runs m
        exact ⟨j, hruns.snd_eq_after⟩
    obtain ⟨j, hj⟩ := hone
    obtain ⟨n, hn⟩ := ih (m := (m.perform c).2) fun c hc => h c (List.mem_cons_of_mem _ hc)
    refine ⟨j + n, ?_⟩
    rw [after_add, ← hj, ← hn]
    rfl

/-- **Machines that are only stepped and run.** Whatever the image, the channel and the limit, such a
machine has taken a number of steps, whose calls account for its channel, and every value that was
written to the channel in them is a word. Its pointer is in memory or right behind it, or is a word
that a jump has loaded. It has failed exactly if a cause is recorded, and where it has halted the
instruction at the pointer is to halt. -/
theorem driven_invariant (image : List Int) (channel : Channel) (L : Int) (lenient : Bool)
    {commands : List Command} (hdrive : ∀ c ∈ commands, c = .step ∨ c = .run) :
    let m := boot image channel L lenient
    let m' := m.session commands
    ∃ n, m' = m.after n ∧ m'.channel = (m.exchanges n).foldl Channel.undergo channel ∧
      (∀ v outcome, .write v outcome ∈ m.exchanges n → Word.InRange v) ∧
      (0 ≤ m'.ip ∧ m'.ip ≤ m'.memory.size ∨
        Word.InRange m'.ip ∧ ∃ k < n, (m.after k).Jumps m'.ip) ∧
      (m'.status = .errored ↔ ∃ e, m'.error = some e) ∧
      (m'.status = .halted → Instruction.decode m'.memory.cells m'.ip = .ok .halt) := by
  intro m m'
  obtain ⟨n, hn⟩ : ∃ n, m' = m.after n := session_eq_after hdrive
  have hboot : m.Sound := boot_sound image channel L lenient
  have horderly : m'.Orderly := by
    rw [hn]
    exact after_induction (P := Orderly) (fun _ => step_orderly) (boot_orderly image channel L lenient) n
  refine ⟨n, hn, ?_, fun v outcome => exchanges_inRange hboot n, ?_, horderly.errored, horderly.halted⟩
  · rw [hn]
    exact after_channel_eq m n
  · rw [hn]
    rcases after_pointer hboot ⟨Int.le_refl 0, Int.natCast_nonneg _⟩ n with hin | ⟨k, hk, hjump⟩
    · exact .inl hin
    · exact .inr ⟨hjump.inRange (after_sound hboot k).1.cells, k, hk, hjump⟩

/-- A machine that writes the word congruent to its operand, and is then led astray by a jump. -/
theorem driven_invariant_astray :
    let m := boot [104, 4294967295, 1105, 1, -5] (.queue (.ofInputs [])) 9 false
    let m' := m.session [.step, .run, .step]
    m'.status = .errored ∧ m'.channel = .queue ⟨[], #[-1]⟩ ∧ m'.ip = -5 ∧ (∃ e, m'.error = some e) ∧
      ∃ n, m' = m.after n ∧ ∃ k < n, (m.after k).Jumps (-5) := by
  intro m m'
  have hdrive : ∀ c ∈ [Command.step, .run, .step], c = .step ∨ c = .run := by decide
  have hend : m'.status = .errored ∧ m'.channel = .queue ⟨[], #[-1]⟩ ∧ m'.ip = -5 := by
    subst m' m
    decide +kernel
  obtain ⟨hstatus, hchannel, hip⟩ := hend
  obtain ⟨n, hn, -, -, hpointer, herrored, -⟩ :=
    driven_invariant [104, 4294967295, 1105, 1, -5] (.queue (.ofInputs [])) 9 false hdrive
  refine ⟨hstatus, hchannel, hip, herrored.1 hstatus, n, hn, ?_⟩
  rcases hpointer with ⟨hin, -⟩ | ⟨-, hjump⟩
  · rw [hip] at hin
    exact absurd hin (by decide)
  · rw [hip] at hjump
    exact hjump

end Intcode.Machine
