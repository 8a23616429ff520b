import Intcode.Proofs.WrittenFaults

/-!
# Steps and runs in any order

A machine can be stepped and run in any order, and calls may go on after one that
failed. As soon as there is a run among them, all that counts is the run: one call,
the one that stops the machine, answers what a single run would have answered. The
calls before it find the machine running and leave it so, and the calls after it find
it stopped and leave it as it is. Only if the fault that ends the run cannot be written
is the machine not stopped: then every later call fails in the same way, and leaves the
machine as it is all the same.

* `perform_of_stopped`, `perform_of_stuck`: a call on a machine that has stopped, or that
  fails without a change.
* `run_settles`: a run leaves the machine in one of these two ways.
* `perform_cases`: a call ends the run of a machine as a single run does, or puts its
  end off.
* `session_cases`: what a sequence of calls answers and where it leaves the machine.
* `session_composes`: a sequence with a run in it is a run.
* `answers_unwritten`: two calls that fail.
-/

namespace Intcode.Machine

/-- Does the command step or run the machine? -/
def Drives (command : Command) : Prop := command = .step ∨ command = .run

/-- What the commands of a session answer, in order. -/
def answers (m : Machine) : List Command → List (Except Fault Reply)
  | [] => []
  | command :: commands => (m.perform command).1 :: answers (m.perform command).2 commands

variable {m m' : Machine} {command : Command} {commands : List Command}

theorem session_cons (m : Machine) (command : Command) (commands : List Command) :
    m.session (command :: commands) = (m.perform command).2.session commands := rfl

/-- A run goes on where a step after which the machine runs has left it. -/
theorem run_of_step_running (h : m.step = (.ok .running, m')) : m.run = m'.run := by
  obtain ⟨n, -, hruns⟩ := exists_runs m'
  exact (Runs.more h hruns).run_eq

/-- A step after which the machine does not run is all of its run. -/
theorem run_of_step_ends (h : m.step.1 ≠ .ok .running) : m.run = m.step :=
  (Runs.last rfl h).run_eq

/-- **A call on a machine that has stopped** answers its status and changes nothing. -/
theorem perform_of_stopped (hs : m.status ≠ .running) (hc : Drives command) :
    m.perform command = (.ok (.status m.status), m) := by
  have hstep : m.step = (.ok m.status, m) := step_of_stopped hs
  have hrun : m.run = (.ok m.status, m) := by
    have hends : m.step.1 ≠ .ok .running := by
      rw [hstep]
      intro h
      exact hs (Except.ok.inj h)
    rw [run_of_step_ends hends, hstep]
  rcases hc with rfl | rfl
  · simp only [perform, reply, hstep]
    rfl
  · simp only [perform, reply, hrun]
    rfl

/-- **A call ends the run of a machine, or puts its end off**: then it is a step, the machine is running
after it, and its run is still the same. -/
theorem perform_cases (hc : Drives command) :
    m.perform command = reply .status m.run ∨
      command = .step ∧ (m.perform command).1 = .ok (.status .running) ∧
        (m.perform command).2.run = m.run := by
  rcases hc with rfl | rfl
  · by_cases hr : m.step.1 = .ok .running
    · right
      have hstep : m.step = (.ok .running, m.step.2) := by rw [← hr]
      have hans : (m.perform .step).1 = .ok (.status .running) := by
        simp only [perform, reply, hr]
        rfl
      exact ⟨rfl, hans, (run_of_step_running hstep).symm⟩
    · left
      rw [run_of_step_ends hr]
      rfl
  · exact .inl rfl

/-- A call on a machine that fails without a change fails in this way. -/
theorem perform_of_stuck {e : Fault} (hm : m.step = (.error e, m)) (hc : Drives command) :
    m.perform command = (.error e, m) := by
  have hrun : m.run = (.error e, m) := (Runs.last hm (by simp)).run_eq
  rcases hc with rfl | rfl
  · simp only [perform, reply, hm]
    rfl
  · simp only [perform, reply, hrun]
    rfl

/-- What a call answers after a run: the status, or the fault again if that has not stopped the
machine. -/
def afterwards (r : Except Fault Status × Machine) : Except Fault Reply :=
  if r.2.status = .running then r.1.map .status else .ok (.status r.2.status)

/-- **A run settles a machine**: it has stopped, or it fails in the same way again and again. That is
so if the fault of the run cannot be written. -/
theorem run_settles (hm : m.Sound) :
    m.run.2.status ≠ .running ∨ m.run.2.status = .running ∧
      ∃ e, m.run.1 = .error e ∧ e.kind = .unwritten ∧ m.run.2.step = (.error e, m.run.2) := by
  obtain ⟨n, -, hruns⟩ := exists_runs m
  by_cases hs : m.status = .running
  swap
  · left
    rw [hruns.snd_eq_after, after_of_stopped hs]
    exact hs
  rcases hruns.ends hs with ⟨-, hhalted, -⟩ | ⟨e, he, hstatus, -⟩
  · left
    rw [hhalted]
    simp
  cases hw : e.writable with
  | true =>
    rw [hw] at hstatus
    left
    rw [hstatus]
    simp
  | false =>
    rw [hw] at hstatus
    obtain ⟨j, -, hj⟩ := hruns.eq_step
    have hfails : (m.after j).step.1 = .error e := by rw [← hj]; exact he
    have hsame := step_of_unwritable (after_sound hm j).1.cells hfails hw
    have hend : m.run.2 = m.after j := by rw [hj, hsame]
    exact .inr ⟨hstatus, e, he, Fault.kind_eq_unwritten_iff.2 hw, by rw [hend, hsame]⟩

/-- A call after a run changes nothing. -/
theorem perform_afterwards (hm : m.Sound) (hc : Drives command) :
    m.run.2.perform command = (afterwards m.run, m.run.2) := by
  rcases run_settles hm with hs | ⟨hs, e, he, -, hstuck⟩
  · rw [perform_of_stopped hs hc, afterwards, if_neg hs]
  · rw [perform_of_stuck hstuck hc, afterwards, if_pos hs, he]
    rfl

/-- Calls after a run change nothing, and all answer the same. -/
theorem session_afterwards (hm : m.Sound) (hc : ∀ c ∈ commands, Drives c) :
    m.run.2.session commands = m.run.2 ∧ ∀ a ∈ m.run.2.answers commands, a = afterwards m.run := by
  induction commands with
  | nil =>
    refine ⟨rfl, ?_⟩
    intro a ha
    cases ha
  | cons command commands ih =>
    have hcall := perform_afterwards hm (hc command List.mem_cons_self)
    obtain ⟨hsession, hanswers⟩ := ih fun c h => hc c (List.mem_cons_of_mem _ h)
    rw [session_cons, answers, hcall]
    refine ⟨hsession, ?_⟩
    intro a ha
    rcases List.mem_cons.1 ha with rfl | ha
    · rfl
    · exact hanswers a ha

/-- **A sequence of calls** puts the end of the run off all the way, and then there is no run in it; or
one of its calls ends the run, and the others do not touch it. -/
theorem session_cases (hm : m.Sound) (hc : ∀ c ∈ commands, Drives c) :
    .run ∉ commands ∨
      m.session commands = m.run.2 ∧
      ∃ before after, m.answers commands = before ++ m.run.1.map .status :: after ∧
        (∀ a ∈ before, a = .ok (.status .running)) ∧ ∀ a ∈ after, a = afterwards m.run := by
  induction commands generalizing m with
  | nil => exact .inl List.not_mem_nil
  | cons command commands ih =>
    have hc' : ∀ c ∈ commands, Drives c := fun c h => hc c (List.mem_cons_of_mem _ h)
    rcases perform_cases (hc command List.mem_cons_self) with hends | ⟨rfl, hans, hrun⟩
    · -- this call ends the run, and the others come too late
      right
      obtain ⟨hsession, hanswers⟩ := session_afterwards hm hc'
      rw [session_cons, answers, hends]
      refine ⟨hsession, [], m.run.2.answers commands, rfl, ?_, hanswers⟩
      intro a ha
      cases ha
    · rcases ih (perform_sound hm .step).1 hc' with
        hnone | ⟨hsession, before, after, hanswers, hbefore, hafter⟩
      · left
        simpa using hnone
      · right
        rw [hrun] at hsession hanswers hafter
        rw [session_cons, answers, hans, hanswers]
        refine ⟨hsession, .ok (.status .running) :: before, after, rfl, ?_, hafter⟩
        intro a ha
        rcases List.mem_cons.1 ha with rfl | ha
        · rfl
        · exact hbefore a ha

/-- Of answers that are split at the end of a run, only that of the run can be a failure. -/
theorem countP_failures {r : Except Fault Status} {s : Status}
    {before after : List (Except Fault Reply)} (hbefore : ∀ a ∈ before, a = .ok (.status .running))
    (hafter : ∀ a ∈ after, a = .ok (.status s)) :
    (before ++ r.map .status :: after).countP (!·.isOk) = if r.isOk then 0 else 1 := by
  have hnone : ∀ {t : Status} {l : List (Except Fault Reply)}, (∀ a ∈ l, a = .ok (.status t)) →
      l.countP (!·.isOk) = 0 := by
    intro t l hl
    rw [List.countP_eq_zero]
    intro a ha
    rw [hl a ha]
    simp [Except.isOk, Except.toBool]
  rw [List.countP_append, List.countP_cons, hnone hbefore, hnone hafter]
  cases r <;> rfl

/-- **Steps and runs compose.** Step and run a fresh machine in any order, and go on after calls that
fail. If there is a run among the calls, the machine is in the end, channel and all, what a single run
makes of it. The answers are that it is running, up to the call that answers what the single run
answers, and from then on its status; so exactly one call fails if the single run does, and none if it
does not. And every call on the machine once it has stopped answers its status and leaves all of it as
it is. The machine has stopped after the run, unless that failed and its fault cannot be written: then
every later call fails as the run does, too. -/
theorem session_composes (image : List Int) (channel : Channel) (L : Int) (lenient : Bool)
    (hdrive : ∀ c ∈ commands, Drives c) (hrun : .run ∈ commands) :
    let m := boot image channel L lenient
    m.session commands = m.run.2 ∧
    (m.run.2.status = .running ↔ ∃ e, m.run.1 = .error e ∧ e.kind = .unwritten) ∧
    (∃ before after, m.answers commands = before ++ m.run.1.map .status :: after ∧
      (∀ a ∈ before, a = .ok (.status .running)) ∧
      ∀ a ∈ after, a =
        if m.run.2.status = .running then m.run.1.map .status else .ok (.status m.run.2.status)) ∧
    (m.run.2.status ≠ .running →
      (m.answers commands).countP (!·.isOk) = (if m.run.1.isOk then 0 else 1)) ∧
    ∀ past call future, commands = past ++ call :: future → (m.session past).status ≠ .running →
      (m.session past).perform call = (.ok (.status (m.session past).status), m.session past) := by
  intro m
  have hm : m.Sound := boot_sound image channel L lenient
  rcases session_cases hm hdrive with hnone | ⟨hsession, before, after, hanswers, hbefore, hafter⟩
  · exact absurd hrun hnone
  refine ⟨hsession, ⟨?_, ?_⟩, ⟨before, after, hanswers, hbefore, hafter⟩, ?_, ?_⟩
  · intro hs
    rcases run_settles hm with hstop | ⟨-, e, he, hkind, -⟩
    · exact absurd hs hstop
    · exact ⟨e, he, hkind⟩
  · rintro ⟨e, he, hkind⟩
    obtain ⟨n, -, hruns⟩ := exists_runs m
    rcases hruns.ends rfl with ⟨hok, -⟩ | ⟨e', he', hstatus, -⟩
    · rw [he] at hok; cases hok
    · cases he.symm.trans he'
      rw [Fault.kind_eq_unwritten_iff.1 hkind] at hstatus
      exact hstatus
  · intro hstop
    rw [hanswers]
    refine countP_failures hbefore ?_ (s := m.run.2.status)
    intro a ha
    rw [hafter a ha, afterwards, if_neg hstop]
  · intro past call future hsplit hstop
    have hcall : Drives call := hdrive call (by rw [hsplit]; simp)
    exact perform_of_stopped hstop hcall

/-- A machine that writes a number and then asks for one in vain: the second of four calls fails. -/
theorem session_composes_starved :
    let m := boot [104, 5, 3, 0] (.queue (.ofInputs [])) 9 false
    let commands : List Command := [.step, .run, .step, .run]
    m.run.1 = .error .queueEmpty ∧ m.session commands = m.run.2 ∧
      (m.answers commands).countP (!·.isOk) = 1 ∧
      (m.session [.step, .run]).perform .step = (.ok (.status .errored), m.session [.step, .run]) := by
  intro m commands
  have hdrive : ∀ c ∈ commands, Drives c := by
    subst commands
    simp [Drives]
  have hrun : .run ∈ commands := by
    subst commands
    decide
  have hfails : m.run.1 = .error .queueEmpty := by rfl
  have herrored : (m.session [.step, .run]).status = .errored := by rfl
  have hstop : m.run.2.status ≠ .running := by
    have hstatus : m.run.2.status = .errored := by rfl
    rw [hstatus]
    simp
  obtain ⟨hsession, -, -, hcount, hlate⟩ :=
    session_composes [104, 5, 3, 0] (.queue (.ofInputs [])) 9 false hdrive hrun
  have hstays := hlate [.step, .run] .step [.run] rfl (by rw [herrored]; simp)
  rw [herrored] at hstays
  exact ⟨hfails, hsession, hcount hstop, hstays⟩

/-- **Two calls that fail**: a limit that is too long to be written ends a run, and ends it again when
the machine is run once more. -/
theorem answers_unwritten :
    let limit : Int := -(Nat.pow 10 Numeral.maxDigits : Nat)
    let m := boot [99] (.queue (.ofInputs [])) limit false
    m.run.1.isOk = false ∧ (m.answers [.run, .run]).countP (!·.isOk) = 2 := by
  intro limit
  have hlong : Numeral.writable limit = false := (Numeral.writable_neg _).trans Numeral.writable_pow
  have hneg : limit ≤ 0 := Int.neg_nonpos_of_nonneg (Int.natCast_nonneg _)
  clear_value limit
  intro m
  obtain ⟨hstep, hrun, -⟩ := run_of_unwritable_limit [99] (.queue (.ofInputs [])) false hneg hlong
  have hcall : m.perform .run = (.error (.tickLimit limit 0), m) := perform_of_stuck hstep (.inr rfl)
  have hfails : m.run.1 = .error (.tickLimit limit 0) := by rw [hrun]
  refine ⟨by rw [hfails]; rfl, ?_⟩
  simp only [answers, hcall]
  rfl

end Intcode.Machine
