import Intcode.Proofs.Causality
import Intcode.Proofs.Session
import Intcode.Settings

/-!
# Stages of a chain

A chain is told from the machines of its stages alone. A stage passes a signal on if
its machine, which is given the phase and the signal before, halts within the limit
and has written something; and it fails if its machine does, or if it halts and has
written nothing.

* `passes_iff`, `fails_iff`: what the run of a stage gives.
* `feed_eq_ok_iff`, `feed_eq_error_iff`: signals from stage to stage, up to the last
  one or to the first that fails.
* `feedEvents_of_fails`: no stage behind the first that fails is run.
* `not_passes_of_inputs`: a stage has input for two input instructions.
* `run_stages`: all of it, for a whole chain.
* `run_unwritten_phase`: a silent stage whose phase is too long to be written.
-/

namespace Intcode

namespace Machine

variable {m : Machine}

/-- Is an input instruction the next to be executed? -/
def AtInput (m : Machine) : Prop :=
  m.status = .running ∧ ∃ dest, Instruction.decode m.memory.cells m.ip = .ok (.input dest)

/-- An input instruction that succeeds takes a value off the queue. -/
theorem AtInput.step_pending {q : Queue} {s : Status} (h : m.AtInput) (hq : m.channel = .queue q)
    (hs : m.step.1 = .ok s) :
    ∃ q', m.step.2.channel = .queue q' ∧ q'.pending.length + 1 = q.pending.length := by
  obtain ⟨hrun, dest, hdecode⟩ := h
  obtain ⟨m₁, ha, -⟩ := act_of_step_ok hrun hs
  have hlt := lt_of_act_ok ha
  have hfetch : m.fetch = .ok (.input dest) := by
    rw [fetch, if_neg (by omega)]
    exact hdecode
  have hx : m.exchange? = some (.read m.channel.read.1) := by
    simp only [exchange?, hrun, hfetch]
  obtain ⟨q', hq', hlen⟩ := Machine.step_pending hq
  refine ⟨q', hq', ?_⟩
  cases hr : m.channel.read.1 with
  | error e =>
    -- a read in vain would have made the step fail
    rw [hr] at hx
    rw [step_of_refused hx rfl] at hs
    cases hs
  | ok v =>
    rw [hx, hr] at hlen
    exact hlen

/-- What waits on a queue grows no longer. -/
theorem pending_length_le {j k : Nat} (hjk : j ≤ k) {p q : Queue}
    (hp : (m.after j).channel = .queue p) (hq : (m.after k).channel = .queue q) :
    q.pending.length ≤ p.pending.length := by
  obtain ⟨d, rfl⟩ := Nat.exists_eq_add_of_le hjk
  obtain ⟨q', hq', hsuffix⟩ := after_suffix hp d
  rw [after_add, hq'] at hq
  cases hq
  exact hsuffix.length_le

/-- A run fails where counted steps lead to one that fails, and with its cause. -/
theorem run_error_iff {cause : Fault} (hs : m.status = .running) :
    m.run.1 = .error cause ↔
      ∃ n, (m.after n).tick = m.tick + n ∧ (m.after n).step.1 = .error cause := by
  constructor
  · intro h
    obtain ⟨k, -, hruns⟩ := exists_runs m
    obtain ⟨n, rfl, hlast⟩ := hruns.eq_step
    exact ⟨n, (hruns.running hs n (Nat.lt_succ_self n)).2, by rw [← hlast, h]⟩
  · rintro ⟨n, htick, herror⟩
    have hruns := runs_of_running (act_of_step_error herror).1 htick (by rw [herror]; simp)
    rw [hruns.run_eq, herror]

end Machine

namespace Chain

variable {c : Chain}

/-- A machine of its own that is given the phase and the signal halts within the limit, and the first
value that it wrote is `out`. -/
def Passes (c : Chain) (phase signal out : Int) : Prop :=
  ∃ (n : Nat) (q : Queue), n ≤ c.tickLimit ∧
    ((c.stageMachine phase signal).after n).status = .halted ∧
    ((c.stageMachine phase signal).after n).channel = .queue q ∧ q.outputs[0]? = some out

/-- A machine of its own that is given the phase and the signal fails after `n` instructions, and its
cause is that of the stage; or it halts within the limit and has written nothing, and the cause names
the stage and its phase. -/
def Fails (c : Chain) (stage phase signal : Int) (cause : Fault) : Prop :=
  (∃ n, ((c.stageMachine phase signal).after n).tick = n ∧
    ((c.stageMachine phase signal).after n).step.1 = .error cause) ∨
  cause = .silentStage stage phase ∧ ∃ (n : Nat) (q : Queue), n ≤ c.tickLimit ∧
    ((c.stageMachine phase signal).after n).status = .halted ∧
    ((c.stageMachine phase signal).after n).channel = .queue q ∧ q.outputs = #[]

/-- A stage whose run ends well has halted within the limit, and its queue is there. -/
theorem stage_of_ok {phase signal : Int} {status : Status}
    (h : (c.stageMachine phase signal).run.1 = .ok status) :
    ∃ (n : Nat) (q : Queue), n ≤ c.tickLimit ∧
      ((c.stageMachine phase signal).after n).status = .halted ∧
      ((c.stageMachine phase signal).after n).channel = .queue q ∧
      firstOutput? (c.stageMachine phase signal).run.2 = q.outputs[0]? := by
  obtain ⟨n, -, hruns⟩ := Machine.exists_runs (c.stageMachine phase signal)
  obtain ⟨q, hq⟩ : ∃ q, ((c.stageMachine phase signal).after n).channel = .queue q :=
    Machine.after_queue ⟨_, rfl⟩ n
  rcases hruns.ends rfl with ⟨-, hhalt, htick⟩ | ⟨e, he, -⟩
  · rw [hruns.snd_eq_after] at hhalt htick
    -- every step was counted, and there was at least one
    obtain ⟨hsound, hcont⟩ := Machine.after_sound (m := c.stageMachine phase signal)
      (Machine.boot_sound _ _ _ _) n
    have hbound := hsound.tick
    have hlimit : ((c.stageMachine phase signal).after n).tickLimit = c.tickLimit := hcont.tickLimit
    have hzero : (c.stageMachine phase signal).tick = 0 := rfl
    obtain ⟨j, hj, -⟩ := hruns.eq_step
    refine ⟨n, q, by omega, hhalt, hq, ?_⟩
    rw [hruns.snd_eq_after]
    simp only [firstOutput?, hq]
  · rw [h] at he
    cases he

/-- A stage that halts gives what its queue has first. -/
theorem stage_of_halted {phase signal : Int} {n : Nat} {q : Queue}
    (hhalt : ((c.stageMachine phase signal).after n).status = .halted)
    (hq : ((c.stageMachine phase signal).after n).channel = .queue q) :
    (c.stageMachine phase signal).run.1 = .ok .halted ∧
      firstOutput? (c.stageMachine phase signal).run.2 = q.outputs[0]? := by
  have hend := Machine.run_of_halted rfl hhalt
  rw [hend]
  exact ⟨rfl, by simp only [firstOutput?, hq]⟩

/-- **What a stage passes on.** -/
theorem passes_iff {stage phase signal out : Int} :
    c.runStage stage phase signal = .ok out ↔ c.Passes phase signal out := by
  rw [runStage_eq_ok_iff]
  constructor
  · rintro ⟨⟨status, hok⟩, hout⟩
    obtain ⟨n, q, hn, hhalt, hq, hfirst⟩ := stage_of_ok hok
    exact ⟨n, q, hn, hhalt, hq, hfirst.symm.trans hout⟩
  · rintro ⟨n, q, -, hhalt, hq, hout⟩
    obtain ⟨hok, hfirst⟩ := stage_of_halted hhalt hq
    exact ⟨⟨.halted, hok⟩, hfirst.trans hout⟩

/-- A stage fails where its machine does, or where it has halted and written nothing. -/
theorem runStage_eq_error_iff {stage phase signal : Int} {cause : Fault} :
    c.runStage stage phase signal = .error cause ↔
      (c.stageMachine phase signal).run.1 = .error cause ∨
        cause = .silentStage stage phase ∧
          (∃ status, (c.stageMachine phase signal).run.1 = .ok status) ∧
          firstOutput? (c.stageMachine phase signal).run.2 = none := by
  unfold runStage
  cases (c.stageMachine phase signal).run with
  | mk r m =>
    cases r with
    | error e => simp
    | ok status =>
      cases hf : firstOutput? m with
      | none => simp [hf, eq_comm]
      | some w => simp [hf]

/-- **How a stage fails.** -/
theorem fails_iff {stage phase signal : Int} {cause : Fault} :
    c.runStage stage phase signal = .error cause ↔ c.Fails stage phase signal cause := by
  have hfirst : (c.stageMachine phase signal).run.1 = .error cause ↔
      ∃ n, ((c.stageMachine phase signal).after n).tick = n ∧
        ((c.stageMachine phase signal).after n).step.1 = .error cause := by
    have hzero : (c.stageMachine phase signal).tick = 0 := rfl
    simpa only [hzero, Nat.zero_add] using
      Machine.run_error_iff (m := c.stageMachine phase signal) rfl
  rw [runStage_eq_error_iff, hfirst]
  refine or_congr_right (and_congr_right fun _ => ?_)
  constructor
  · rintro ⟨⟨status, hok⟩, hout⟩
    obtain ⟨n, q, hn, hhalt, hq, hfirst⟩ := stage_of_ok hok
    have hsize : q.outputs.size ≤ 0 := Array.getElem?_eq_none_iff.1 (hfirst.symm.trans hout)
    exact ⟨n, q, hn, hhalt, hq, Array.size_eq_zero_iff.1 (by omega)⟩
  · rintro ⟨n, q, -, hhalt, hq, hempty⟩
    obtain ⟨hok, hfirst⟩ := stage_of_halted hhalt hq
    refine ⟨⟨.halted, hok⟩, hfirst.trans ?_⟩
    rw [hempty]
    rfl

/-- What a stage passes on is a word. -/
theorem Passes.inRange {phase signal out : Int} (h : c.Passes phase signal out) :
    Word.InRange out := by
  obtain ⟨n, q, -, -, hq, hout⟩ := h
  have hwordy := Machine.after_wordy c.program [phase, signal] c.tickLimit true n
  exact hwordy.outputs q hq out (Array.mem_of_getElem? hout)

/-- **A stage has input for two input instructions.** One that comes to a third passes nothing on. -/
theorem not_passes_of_inputs {phase signal : Int} {i j k : Nat} (hij : i < j) (hjk : j < k)
    (hi : ((c.stageMachine phase signal).after i).AtInput)
    (hj : ((c.stageMachine phase signal).after j).AtInput)
    (hk : ((c.stageMachine phase signal).after k).AtInput) (out : Int) :
    ¬ c.Passes phase signal out := by
  rintro ⟨n, q, -, hhalt, -⟩
  -- each of the three takes a value, and the queue has two
  have key : ∀ l, ((c.stageMachine phase signal).after l).AtInput →
      ∃ p p', ((c.stageMachine phase signal).after l).channel = .queue p ∧
        ((c.stageMachine phase signal).after (l + 1)).channel = .queue p' ∧
        p'.pending.length + 1 = p.pending.length := by
    intro l hl
    obtain ⟨p, hp⟩ : ∃ p, ((c.stageMachine phase signal).after l).channel = .queue p :=
      Machine.after_queue ⟨_, rfl⟩ l
    obtain ⟨s, hs⟩ := Machine.step_ok_of_halted hl.1 hhalt
    obtain ⟨p', hp', hlen⟩ := hl.step_pending hp hs
    exact ⟨p, p', hp, by rw [Machine.after_succ]; exact hp', hlen⟩
  obtain ⟨p₁, p₁', hp₁, hp₁', h₁⟩ := key i hi
  obtain ⟨p₂, p₂', hp₂, hp₂', h₂⟩ := key j hj
  obtain ⟨p₃, p₃', hp₃, -, h₃⟩ := key k hk
  have h₀₁ : p₁.pending.length ≤ 2 :=
    Machine.pending_length_le (m := c.stageMachine phase signal) (Nat.zero_le i)
      (p := .ofInputs [phase, signal]) rfl hp₁
  have h₁₂ := Machine.pending_length_le (m := c.stageMachine phase signal) hij hp₁' hp₂
  have h₂₃ := Machine.pending_length_le (m := c.stageMachine phase signal) hjk hp₂' hp₃
  omega

/-- Each stage passes on the signal that the next one is given. -/
def Relays (c : Chain) (phases : List Int) (signals : Nat → Int) : Prop :=
  ∀ i (hi : i < phases.length), c.Passes phases[i] (signals i) (signals (i + 1))

/-- A signal in front of others. -/
def lead (signal : Int) (signals : Nat → Int) : Nat → Int
  | 0 => signal
  | i + 1 => signals i

/-- Signals go through a first stage and then through the others. -/
theorem relays_cons {phase : Int} {phases : List Int} {signals : Nat → Int} :
    c.Relays (phase :: phases) signals ↔
      c.Passes phase (signals 0) (signals 1) ∧ c.Relays phases fun i => signals (i + 1) := by
  constructor
  · intro h
    exact ⟨h 0 (by simp), fun i hi => h (i + 1) (by simpa using hi)⟩
  · rintro ⟨hfirst, hrest⟩ i hi
    cases i with
    | zero => exact hfirst
    | succ i => exact hrest i (by simpa using hi)

/-- **A signal comes out of the last stage** if it has been passed on from stage to stage. -/
theorem feed_eq_ok_iff {stage : Nat} {signal s : Int} {phases : List Int} :
    c.feed stage signal phases = .ok s ↔
      ∃ signals, signals 0 = signal ∧ signals phases.length = s ∧ c.Relays phases signals := by
  induction phases generalizing stage signal with
  | nil =>
    rw [feed]
    constructor
    · intro h
      cases h
      exact ⟨fun _ => s, rfl, rfl, by intro i hi; simp at hi⟩
    · rintro ⟨signals, rfl, rfl, -⟩
      rfl
  | cons phase phases ih =>
    rw [feed_cons_eq_ok_iff]
    constructor
    · rintro ⟨signal', hstage, hfeed⟩
      obtain ⟨signals, rfl, hlast, hrelays⟩ := ih.1 hfeed
      exact ⟨lead signal signals, rfl, hlast, relays_cons.2 ⟨passes_iff.1 hstage, hrelays⟩⟩
    · rintro ⟨signals, rfl, hlast, hrelays⟩
      obtain ⟨hfirst, hrest⟩ := relays_cons.1 hrelays
      exact ⟨signals 1, passes_iff.2 hfirst, ih.2 ⟨_, rfl, hlast, hrest⟩⟩

theorem feed_cons_eq_error_iff {stage : Nat} {signal phase : Int} {phases : List Int}
    {cause : Fault} :
    c.feed stage signal (phase :: phases) = .error cause ↔
      c.runStage stage phase signal = .error cause ∨
        ∃ signal', c.runStage stage phase signal = .ok signal' ∧
          c.feed (stage + 1) signal' phases = .error cause := by
  rw [feed]
  cases c.runStage stage phase signal <;> simp

/-- **The first stage that fails** gives the cause: those before it have passed their signals on. -/
theorem feed_eq_error_iff {stage : Nat} {signal : Int} {phases : List Int} {cause : Fault} :
    c.feed stage signal phases = .error cause ↔
      ∃ (i : Nat) (hi : i < phases.length) (signals : Nat → Int), signals 0 = signal ∧
        c.Relays (phases.take i) signals ∧
        c.Fails ((stage + i : Nat) : Int) phases[i] (signals i) cause := by
  induction phases generalizing stage signal with
  | nil =>
    rw [feed]
    constructor
    · intro h
      cases h
    · rintro ⟨i, hi, -⟩
      simp at hi
  | cons phase phases ih =>
    have hplace : ∀ i, stage + 1 + i = stage + (i + 1) := by intro i; omega
    rw [feed_cons_eq_error_iff, fails_iff]
    constructor
    · rintro (hfails | ⟨signal', hstage, hfeed⟩)
      · exact ⟨0, by simp, fun _ => signal, rfl, by intro i hi; simp at hi, hfails⟩
      · obtain ⟨i, hi, signals, rfl, hrelays, hfails⟩ := ih.1 hfeed
        rw [hplace] at hfails
        exact ⟨i + 1, by simpa using hi, lead signal signals, rfl,
          relays_cons.2 ⟨passes_iff.1 hstage, hrelays⟩, hfails⟩
    · rintro ⟨i, hi, signals, rfl, hrelays, hfails⟩
      cases i with
      | zero => exact .inl hfails
      | succ i =>
        obtain ⟨hfirst, hrest⟩ := relays_cons.1 hrelays
        rw [← hplace] at hfails
        exact .inr ⟨signals 1, passes_iff.2 hfirst,
          ih.2 ⟨i, by simpa using hi, _, rfl, hrest, hfails⟩⟩

/-- **No stage behind the first that fails is run**: what is reported are the stages up to it. -/
theorem feedEvents_of_fails {stage i : Nat} {phases : List Int} {signals : Nat → Int}
    {cause : Fault} (hi : i < phases.length) (hrelays : c.Relays (phases.take i) signals)
    (hfails : c.Fails ((stage + i : Nat) : Int) phases[i] (signals i) cause) :
    c.feedEvents stage (signals 0) phases =
      ((phases.take (i + 1)).mapIdx fun j p =>
        c.stageEvents ((stage + j : Nat) : Int) p (signals j)).flatten := by
  induction phases generalizing stage i signals with
  | nil => simp at hi
  | cons phase phases ih =>
    cases i with
    | zero =>
      have hstage : c.runStage stage phase (signals 0) = .error cause := fails_iff.2 hfails
      simp [feedEvents, hstage]
    | succ i =>
      obtain ⟨hfirst, hrest⟩ := relays_cons.1 hrelays
      have hstage : c.runStage stage phase (signals 0) = .ok (signals 1) := passes_iff.2 hfirst
      have hplace : ∀ j, stage + 1 + j = stage + (j + 1) := by intro j; omega
      rw [← hplace] at hfails
      have hlater := ih (by simpa using hi) hrest hfails
      simp only [hplace] at hlater
      rw [feedEvents, hstage, List.take_succ_cons, List.mapIdx_cons, List.flatten_cons]
      exact congrArg (c.stageEvents stage phase (signals 0) ++ ·) hlater

/-- Every signal of a row that starts with a word is a word. -/
theorem Relays.inRange {phases : List Int} {signals : Nat → Int} (h : c.Relays phases signals)
    (h0 : Word.InRange (signals 0)) : ∀ i ≤ phases.length, Word.InRange (signals i)
  | 0, _ => h0
  | i + 1, hi => (h i hi).inRange

theorem run_eq_feed {phases : List Int} (h : 2 ≤ phases.length) :
    c.run phases = c.feed 0 0 phases ∧ c.runEvents phases = c.feedEvents 0 0 phases := by
  have hcheck : checkPhases phases = .ok () := if_neg (by omega)
  rw [run, runEvents, hcheck]
  exact ⟨rfl, rfl⟩

/-- **A chain is the row of its stages.** It gives a signal exactly if there are signals, the first of
them zero and the last of them this one, each of which its stage passes on: a machine of its own that
is given the phase and the signal halts within the limit and writes the next signal first. It fails
exactly if one of its stages fails and those before that one pass their signals on. The cause is that of
the machine, or names the stage and its phase if the machine halted and wrote nothing; and the stages
behind are not run, for nothing is reported of them. What a chain gives is a word, and no stage that
comes to a third input instruction passes anything on. A silent stage is raised as such if its number
and its phase can be written. A limit that is a loose value makes no difference to all this, if it is
a number. -/
theorem run_stages (c : Chain) (phases : List Int) (h : 2 ≤ phases.length) :
    (∀ s, c.run phases = .ok s ↔
      ∃ signals, signals 0 = 0 ∧ signals phases.length = s ∧ c.Relays phases signals) ∧
    (∀ cause, c.run phases = .error cause ↔
      ∃ (i : Nat) (hi : i < phases.length) (signals : Nat → Int), signals 0 = 0 ∧
        c.Relays (phases.take i) signals ∧ c.Fails i phases[i] (signals i) cause ∧
        c.runEvents phases =
          ((phases.take (i + 1)).mapIdx fun j p => c.stageEvents j p (signals j)).flatten) ∧
    (∀ s, c.run phases = .ok s → Word.InRange s) ∧
    (∀ stage phase signal, (∃ i j k, i < j ∧ j < k ∧ ((c.stageMachine phase signal).after i).AtInput ∧
      ((c.stageMachine phase signal).after j).AtInput ∧
      ((c.stageMachine phase signal).after k).AtInput) →
      ∃ cause, c.runStage stage phase signal = .error cause) ∧
    (∀ stage phase, (Fault.silentStage stage phase).kind =
      if Numeral.allWritable [stage, phase] then .stage else .unwritten) ∧
    ∀ limit : Value, limit.toInt = .ok c.tickLimit →
      runLoose c.program limit phases = (c.run phases).mapError .fault ∧
      ∀ stage phase signal, runStageLoose c.program limit stage phase signal =
        (c.runStage stage phase signal).mapError .fault := by
  obtain ⟨hrun, hevents⟩ := run_eq_feed (c := c) h
  refine ⟨?_, ?_, ?_, ?_, fun _ _ => rfl, fun limit hlimit =>
    ⟨runLoose_of_toInt hlimit _ _, runStageLoose_of_toInt hlimit _⟩⟩
  · intro s
    rw [hrun]
    exact feed_eq_ok_iff
  · intro cause
    rw [hrun, hevents, feed_eq_error_iff]
    simp only [Nat.zero_add]
    constructor
    · rintro ⟨i, hi, signals, h0, hrelays, hfails⟩
      have hfirst : c.Fails ((0 + i : Nat) : Int) phases[i] (signals i) cause := by
        rw [Nat.zero_add]
        exact hfails
      have hreports := feedEvents_of_fails hi hrelays hfirst
      simp only [h0, Nat.zero_add] at hreports
      exact ⟨i, hi, signals, h0, hrelays, hfails, hreports⟩
    · rintro ⟨i, hi, signals, h0, hrelays, hfails, -⟩
      exact ⟨i, hi, signals, h0, hrelays, hfails⟩
  · intro s hs
    rw [hrun] at hs
    obtain ⟨signals, h0, rfl, hrelays⟩ := feed_eq_ok_iff.1 hs
    exact hrelays.inRange (by rw [h0]; decide) _ (Nat.le_refl _)
  · rintro stage phase signal ⟨i, j, k, hij, hjk, hi, hj, hk⟩
    cases hstage : c.runStage stage phase signal with
    | error cause => exact ⟨cause, rfl⟩
    | ok out => exact absurd (passes_iff.1 hstage) (not_passes_of_inputs hij hjk hi hj hk out)

/-- A chain that writes its phases down as digits; a chain whose second stage halts in silence, for its
phase is zero, so that the third is not run; and a stage that asks for a third value. -/
theorem run_stages_digits :
    let c : Chain := ⟨[3, 15, 3, 16, 1002, 16, 10, 16, 1, 16, 15, 15, 4, 15, 99, 0, 0], 9⟩
    let d : Chain := ⟨[3, 8, 1006, 8, 7, 4, 8, 99, 0], 4⟩
    let e : Chain := ⟨[3, 0, 3, 0, 3, 0, 104, 1, 99], 9⟩
    2 ≤ [4, 3, 2, 1, 0].length ∧ Word.InRange 43210 ∧
      (∃ signals, signals 0 = 0 ∧ signals 5 = 43210 ∧ c.Relays [4, 3, 2, 1, 0] signals) ∧
      (∃ i signals, d.Relays ([5, 0, 7].take i) signals ∧ d.runEvents [5, 0, 7] =
        (([5, 0, 7].take (i + 1)).mapIdx fun j p => d.stageEvents j p (signals j)).flatten) ∧
      (Value.int 4).toInt = .ok d.tickLimit ∧
      runLoose d.program (.int 4) [5, 0, 7] = .error (.fault (.silentStage 1 0)) ∧
      ∃ cause, e.runStage 0 7 8 = .error cause := by
  intro c d e
  have hc : c.run [4, 3, 2, 1, 0] = .ok 43210 := by subst c; decide +kernel
  have hd : d.run [5, 0, 7] = .error (.silentStage 1 0) := by subst d; decide +kernel
  obtain ⟨hok, -, hwords, -⟩ := run_stages c [4, 3, 2, 1, 0] (by decide)
  obtain ⟨-, herror, -, -, -, hloose⟩ := run_stages d [5, 0, 7] (by decide)
  obtain ⟨-, -, -, hinputs, -⟩ := run_stages e [7, 8] (by decide)
  obtain ⟨i, -, signals, -, hrelays, -, hevents⟩ := (herror _).1 hd
  have hthird : ∀ k < 3, ((e.stageMachine 7 8).after k).status = .running ∧
      Instruction.decode ((e.stageMachine 7 8).after k).memory.cells ((e.stageMachine 7 8).after k).ip =
        .ok (.input (.address 0)) := by
    subst e
    decide +kernel
  have hat : ∀ k < 3, ((e.stageMachine 7 8).after k).AtInput := fun k hk =>
    ⟨(hthird k hk).1, .address 0, (hthird k hk).2⟩
  have hlimit : (Value.int 4).toInt = .ok d.tickLimit := rfl
  have hrun : runLoose d.program (.int 4) [5, 0, 7] = .error (.fault (.silentStage 1 0)) := by
    rw [(hloose _ hlimit).1, hd]
    rfl
  exact ⟨by decide, hwords _ hc, (hok _).1 hc, ⟨i, signals, hrelays, hevents⟩, hlimit, hrun,
    hinputs 0 7 8 ⟨0, 1, 2, by decide, by decide, hat 0 (by decide), hat 1 (by decide), hat 2 (by decide)⟩⟩

/-- **A silent stage whose phase is too long to be written.** The machine of the first stage halts and
has written nothing, but what the chain raises is no fault of a stage. -/
theorem run_unwritten_phase :
    let phase : Int := Nat.pow 10 Numeral.maxDigits
    let c : Chain := ⟨[99], 1⟩
    ((c.stageMachine phase 0).after 1).status = .halted ∧
      ((c.stageMachine phase 0).after 1).channel = .queue ⟨[phase, 0], #[]⟩ ∧
      ∃ cause, c.run [phase, 1] = .error cause ∧
        runLoose [99] (.int 1) [phase, 1] = .error (.fault cause) ∧ cause.kind ≠ .stage := by
  intro phase
  have hlong : Numeral.writable phase = false := Numeral.writable_pow
  clear_value phase
  intro c
  have hrun : c.run [phase, 1] = .error (.silentStage 0 phase) := by rfl
  have hloose : runLoose [99] (.int 1) [phase, 1] = .error (.fault (.silentStage 0 phase)) := by
    rw [runLoose_of_toInt (L := 1) rfl, hrun]
    rfl
  refine ⟨by rfl, by rfl, .silentStage 0 phase, hrun, hloose, ?_⟩
  have hwritten : (Fault.silentStage 0 phase).writable = false := by
    simp [Fault.writable, Fault.numbers, Numeral.allWritable, hlong]
  rw [Fault.kind_eq_unwritten_iff.2 hwritten]
  simp

end Chain

end Intcode
