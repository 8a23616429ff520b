import Mathlib.Tactic.ByContra
import Intcode.Proofs.FailedStep

/-!
# Runs

A run repeats steps until the machine no longer answers that it is running. `Runs`
says so without a bound on the number of steps, and `after` is the machine between
two of them.

* `exists_runs`: a run ends, within the steps that the limit leaves and one more.
* `Runs.unique`: it has one length and one end.
* `Runs.ends`: it ends with the machine halted, or with an error. The machine is errored
  then, unless the text of the fault cannot be written.
* `after_running`, `runs_of_running`: steps that are counted and leave the machine running,
  and the step after them that ends its run.
* `Stuck.after`: a machine that has failed executes nothing more.
* `run_of_halted`: a machine that steps have halted is halted by its run.
* `after_induction`, `after_channel`: what every step keeps holds throughout, and so
  does what every read and write keeps of the channel.
* `step_commutes`, `Runs.commutes`: a change of the machine with which the actions of
  a run commute commutes with its steps and with the run.
-/

namespace Intcode.Machine

/-- The machine after `n` steps. -/
def after : Nat → Machine → Machine
  | 0, m => m
  | n + 1, m => after n m.step.2

/-- Steps are repeated while the answer to them is that the machine is running: the `n`-th step from
`m` is the first with another answer, and gives `r`. -/
inductive Runs : Nat → Machine → Except Fault Status × Machine → Prop where
  | last {m : Machine} {r : Except Fault Status × Machine} (h : m.step = r)
    (hr : r.1 ≠ .ok .running) : Runs 1 m r
  | more {n : Nat} {m m' : Machine} {r : Except Fault Status × Machine}
    (h : m.step = (.ok .running, m')) (hr : Runs n m' r) : Runs (n + 1) m r

theorem after_add (m : Machine) (j n : Nat) : m.after (j + n) = (m.after j).after n := by
  induction j generalizing m with
  | zero => rw [Nat.zero_add]; rfl
  | succ j ih => rw [Nat.succ_add, after, ih, after]

theorem after_succ (m : Machine) (n : Nat) : m.after (n + 1) = (m.after n).step.2 := after_add m n 1

/-- **What every step keeps holds throughout.** -/
theorem after_induction {P : Machine → Prop} (hstep : ∀ m, P m → P m.step.2) {m : Machine}
    (h : P m) (n : Nat) : P (m.after n) := by
  induction n generalizing m with
  | zero => exact h
  | succ n ih => exact ih (hstep m h)

/-- **What every read and every write keeps, the channel keeps throughout.** -/
theorem after_channel {P : Channel → Prop} (hread : ∀ c, P c → P c.read.2)
    (hwrite : ∀ c v, P c → P (c.write v).2) {m : Machine} (h : P m.channel) (n : Nat) :
    P (m.after n).channel := by
  apply after_induction (P := fun m => P m.channel) _ h
  intro m h
  -- to count a step or to record a fault leaves the channel as the action left it
  have hact : P (m.act m.next).2.channel := by
    rcases act_channel m m.next with hc | hc | ⟨v, hc⟩
    · rw [hc]; exact h
    · rw [hc]; exact hread _ h
    · rw [hc]; exact hwrite _ v h
  by_cases hs : m.status = .running
  · obtain ⟨m₁, ha, hm⟩ | ⟨e, m₁, ha, hm⟩ := step_cases hs <;> rw [hm] <;> rw [ha] at hact
    · exact hact
    · exact (fail_channel m₁ e).symm ▸ hact
  · rw [step_of_stopped hs]; exact h

/-- A queue stays a queue. -/
theorem after_queue {m : Machine} (h : ∃ q, m.channel = .queue q) (n : Nat) :
    ∃ q, (m.after n).channel = .queue q := by
  refine after_channel (P := fun c => ∃ q, c = .queue q) ?_ ?_ h n
  · rintro c ⟨q, rfl⟩; exact ⟨_, rfl⟩
  · rintro c v ⟨q, rfl⟩; exact ⟨_, rfl⟩

/-- A step after which the machine is running was counted, and the limit allowed it. -/
theorem step_running {m m' : Machine} (h : m.step = (.ok .running, m')) :
    m.status = .running ∧ m'.status = .running ∧ m.tick < m.tickLimit ∧ m'.tick = m.tick + 1 ∧
      m'.tickLimit = m.tickLimit ∧ m'.error = m.error := by
  have hs : m.status = .running := by
    by_contra hs
    rw [step_of_stopped hs] at h
    simp only [Prod.mk.injEq, Except.ok.injEq] at h
    exact hs h.1
  obtain ⟨m₁, ha, hm⟩ | ⟨e, m₁, -, hm⟩ := step_cases hs
  · have hlt := lt_of_act_ok ha
    have hlim := act_tickLimit m m.next
    have herror := act_error_eq m m.next
    rw [hm] at h
    simp only [Prod.mk.injEq, Except.ok.injEq] at h
    obtain ⟨h1, rfl⟩ := h
    rw [ha] at hlim herror
    exact ⟨hs, h1, hlt, rfl, hlim, herror⟩
  · rw [hm] at h; cases h

/-- A step of a running machine that does not answer so halts it or fails. The cause of a failure is
recorded, if its text can be written. -/
theorem step_ends {m : Machine} (hs : m.status = .running) (h : m.step.1 ≠ .ok .running) :
    m.step.1 = .ok .halted ∧ m.step.2.status = .halted ∧ m.step.2.tick = m.tick + 1 ∨
      ∃ e, m.step.1 = .error e ∧ m.step.2.status = (if e.writable then .errored else .running) ∧
        m.step.2.error = (if e.writable then some e else m.error) ∧ m.step.2.tick = m.tick := by
  obtain ⟨m₁, ha, hm⟩ | ⟨e, m₁, ha, hm⟩ := step_cases hs
  · left
    -- a success after which the machine does not run is that of the action to stop
    have hst : m₁.status = .halted := by
      rcases act_status m m.next with hk | ⟨-, hk⟩
      · rw [ha] at hk
        rw [hm] at h
        simp only at hk h
        rw [hk, hs] at h
        exact absurd rfl h
      · rw [ha] at hk
        cases hk
        rfl
    rw [hm]
    exact ⟨by rw [hst], hst, rfl⟩
  · right
    -- an action that fails has not touched the status
    have hstatus : m₁.status = m.status := by
      rcases act_status m m.next with hk | ⟨-, hk⟩
      · rwa [ha] at hk
      · rw [ha] at hk
        cases hk
    have htick := act_tick m m.next
    have herror := act_error_eq m m.next
    rw [ha] at htick herror
    rw [hm]
    refine ⟨e, rfl, ?_, ?_, (fail_tick m₁ e).trans htick⟩
    · rw [fail_status, hstatus, hs]
    · rw [fail_error]
      exact congrArg (if e.writable then some e else ·) herror

/-- **A run has one length and one end.** -/
theorem Runs.unique {n n' : Nat} {m : Machine} {r r' : Except Fault Status × Machine}
    (h : Runs n m r) (h' : Runs n' m r') : n = n' ∧ r = r' := by
  induction h generalizing n' with
  | last h hr =>
    cases h' with
    | last h₁ _ => exact ⟨rfl, h.symm.trans h₁⟩
    | more h₁ _ => rw [← h, h₁] at hr; exact absurd rfl hr
  | more h _ ih =>
    cases h' with
    | last h₁ hr₁ => rw [← h₁, h] at hr₁; exact absurd rfl hr₁
    | more h₁ hr₁ =>
      rw [h] at h₁
      cases h₁
      obtain ⟨rfl, rfl⟩ := ih hr₁
      exact ⟨rfl, rfl⟩

/-- The machine at the end of a run of `n` steps is the machine after `n` steps. -/
theorem Runs.snd_eq_after {n : Nat} {m : Machine} {r : Except Fault Status × Machine}
    (h : Runs n m r) : r.2 = m.after n := by
  induction h with
  | last h _ => rw [← h]; rfl
  | more h _ ih => rw [ih, after, h]

/-- What a run gives, its last step gives. -/
theorem Runs.eq_step {n : Nat} {m : Machine} {r : Except Fault Status × Machine} (h : Runs n m r) :
    ∃ j, n = j + 1 ∧ r = (m.after j).step := by
  induction h with
  | last h _ => exact ⟨0, rfl, h.symm⟩
  | more h _ ih =>
    obtain ⟨j, rfl, hj⟩ := ih
    exact ⟨j + 1, rfl, by rw [hj, after, h]⟩

/-- Enough repetitions are a run, which takes no more steps than the limit leaves and one. -/
theorem exists_runs_runFor (n : Nat) : ∀ m : Machine, m.budget ≤ n →
    ∃ k, k ≤ m.budget ∧ Runs k m (runFor n m) := by
  induction n with
  | zero => intro m hn; simp [budget] at hn
  | succ n ih =>
    intro m hn
    by_cases hr : m.step.1 = .ok .running
    · obtain ⟨m', hm⟩ : ∃ m', m.step = (.ok .running, m') := ⟨m.step.2, by rw [← hr]⟩
      obtain ⟨-, -, hlt, htick, hlim, -⟩ := step_running hm
      -- the step used up one of the steps that the limit leaves
      have hb : m'.budget + 1 = m.budget := by
        unfold budget; rw [htick, hlim]; push_cast; omega
      obtain ⟨k, hk, hruns⟩ := ih m' (by omega)
      refine ⟨k + 1, by omega, ?_⟩
      simp only [runFor, hm]
      exact .more hm hruns
    · have hm : runFor (n + 1) m = m.step := by
        unfold runFor
        split
        · next m' h => rw [h] at hr; exact absurd rfl hr
        · rfl
      exact ⟨1, by unfold budget; omega, by rw [hm]; exact .last rfl hr⟩

/-- **A run ends**, within the steps that the limit leaves and one more. -/
theorem exists_runs (m : Machine) : ∃ n, n ≤ m.budget ∧ Runs n m m.run :=
  exists_runs_runFor m.budget m (Nat.le_refl _)

/-- What steps lead to is what the run gives. -/
theorem Runs.run_eq {n : Nat} {m : Machine} {r : Except Fault Status × Machine} (h : Runs n m r) :
    m.run = r := by
  obtain ⟨k, -, hk⟩ := exists_runs m
  exact (hk.unique h).2

/-- **A run ends with the machine halted, or with an error.** The machine is errored then and knows the
cause, unless its text cannot be written: in that case the machine is running as before. Every step of
a run is counted but one that fails. -/
theorem Runs.ends {n : Nat} {m : Machine} {r : Except Fault Status × Machine} (h : Runs n m r)
    (hs : m.status = .running) :
    r.1 = .ok .halted ∧ r.2.status = .halted ∧ r.2.tick = m.tick + n ∨
      ∃ e, r.1 = .error e ∧ r.2.status = (if e.writable then .errored else .running) ∧
        r.2.error = (if e.writable then some e else m.error) ∧ r.2.tick + 1 = m.tick + n := by
  induction h with
  | last h hr =>
    subst h
    rcases step_ends hs hr with h | ⟨e, h1, h2, h3, h4⟩
    · exact .inl h
    · exact .inr ⟨e, h1, h2, h3, by omega⟩
  | more h _ ih =>
    obtain ⟨-, hs', -, htick, -, herror⟩ := step_running h
    rcases ih hs' with ⟨h1, h2, h3⟩ | ⟨e, h1, h2, h3, h4⟩
    · exact .inl ⟨h1, h2, by omega⟩
    · exact .inr ⟨e, h1, h2, by rw [h3, herror], by omega⟩

/-- No step of a run that ends well fails. -/
theorem Runs.step_ok {n : Nat} {m : Machine} {r : Except Fault Status × Machine} {s : Status}
    (h : Runs n m r) (hr : r.1 = .ok s) : ∀ k < n, ∃ s, (m.after k).step.1 = .ok s := by
  induction h with
  | last hm _ =>
    intro k hk
    have hk0 : k = 0 := by omega
    subst hk0
    exact ⟨s, by rw [after, hm, hr]⟩
  | more hm _ ih =>
    intro k hk
    cases k with
    | zero => exact ⟨.running, by rw [after, hm]⟩
    | succ k =>
      obtain ⟨s', hs'⟩ := ih hr k (by omega)
      exact ⟨s', by rw [after, hm, hs']⟩

/-- A machine that has stopped stays as it is. -/
theorem after_of_stopped {m : Machine} (h : m.status ≠ .running) (n : Nat) : m.after n = m := by
  refine after_induction (P := fun m' => m' = m) ?_ rfl n
  rintro m' rfl
  rw [step_of_stopped h]

/-- A step counts once at most. -/
theorem step_tick_le (m : Machine) : m.step.2.tick ≤ m.tick + 1 := by
  by_cases hs : m.status = .running
  · have htick := act_tick m m.next
    obtain ⟨m₁, -, hm⟩ | ⟨e, m₁, ha, hm⟩ := step_cases hs
    · exact Nat.le_of_eq (by rw [hm])
    · rw [ha] at htick
      rw [hm, fail_tick]
      exact Nat.le_succ_of_le (Nat.le_of_eq htick)
  · rw [step_of_stopped hs]
    exact Nat.le_succ _

theorem after_tick_le (m : Machine) (n : Nat) : (m.after n).tick ≤ m.tick + n := by
  induction n with
  | zero => exact Nat.le_refl _
  | succ n ih =>
    have hstep := step_tick_le (m.after n)
    rw [after_succ]
    omega

/-- A step that was counted, and after which the machine is running, has answered so. -/
theorem step_of_counted {m : Machine} (h : m.step.2.status = .running)
    (htick : m.step.2.tick = m.tick + 1) : m.step = (.ok .running, m.step.2) := by
  have hs : m.status = .running := by
    by_contra hs
    rw [step_of_stopped hs] at h
    exact hs h
  obtain ⟨m₁, -, hm⟩ | ⟨e, m₁, ha, hm⟩ := step_cases hs
  · rw [hm] at h ⊢
    exact Prod.ext (congrArg Except.ok h) rfl
  · -- a step that fails is not counted
    have hkept : m₁.tick = m.tick := by
      have hact := act_tick m m.next
      rwa [ha] at hact
    rw [hm, fail_tick] at htick
    omega

/-- Where steps are all counted and leave a machine running, each of them has done so. -/
theorem after_running {m : Machine} {n : Nat} (h : (m.after n).status = .running)
    (htick : (m.after n).tick = m.tick + n) :
    ∀ k < n, (m.after k).step = (.ok .running, m.after (k + 1)) ∧ (m.after k).tick = m.tick + k := by
  induction n with
  | zero => exact fun k hk => absurd hk (Nat.not_lt_zero k)
  | succ n ih =>
    have hbound := after_tick_le m n
    have hone := step_tick_le (m.after n)
    rw [after_succ] at h htick
    have hcount : (m.after n).tick = m.tick + n := by omega
    have hlast : (m.after n).step = (.ok .running, m.after (n + 1)) := by
      rw [after_succ]
      exact step_of_counted h (by omega)
    obtain ⟨hs, -⟩ := step_running hlast
    intro k hk
    rcases Nat.lt_succ_iff_lt_or_eq.1 hk with hk | rfl
    · exact ih hs hcount k hk
    · exact ⟨hlast, hcount⟩

/-- The step that follows on counted steps that leave a machine running is the last one of its run, if
it does not answer that the machine is running. -/
theorem runs_of_running {m : Machine} {n : Nat} (h : (m.after n).status = .running)
    (htick : (m.after n).tick = m.tick + n) (hlast : (m.after n).step.1 ≠ .ok .running) :
    Runs (n + 1) m (m.after n).step := by
  induction n generalizing m with
  | zero => exact .last rfl hlast
  | succ n ih =>
    have hfirst : m.step = (.ok .running, m.step.2) := (after_running h htick 0 (by omega)).1
    obtain ⟨-, -, -, hcount, -⟩ := step_running hfirst
    refine .more hfirst (ih h ?_ hlast)
    rw [hcount]
    rw [after] at htick
    omega

/-- A run before whose end every step has answered that the machine is running. -/
theorem Runs.running {n : Nat} {m : Machine} {r : Except Fault Status × Machine} (h : Runs n m r)
    (hs : m.status = .running) :
    ∀ k < n, (m.after k).status = .running ∧ (m.after k).tick = m.tick + k := by
  induction h with
  | last hm _ =>
    intro k hk
    have hk0 : k = 0 := by omega
    subst hk0
    exact ⟨hs, rfl⟩
  | more hm _ ih =>
    obtain ⟨-, hs', -, htick, -⟩ := step_running hm
    intro k hk
    cases k with
    | zero => exact ⟨hs, rfl⟩
    | succ k =>
      obtain ⟨hrunning, hcount⟩ := ih hs' k (by omega)
      rw [after, hm]
      exact ⟨hrunning, by rw [hcount, htick]; omega⟩

/-- The machine has failed, or its next step does. -/
def Stuck (m : Machine) : Prop := m.status = .errored ∨ ∃ e, m.step.1 = .error e

theorem Stuck.not_halted {m : Machine} (h : m.Stuck) : m.status ≠ .halted := by
  rcases h with h | ⟨e, h⟩
  · rw [h]; simp
  · rw [(act_of_step_error h).1]; simp

/-- What fails once fails again: all that it may change is the channel, and then the fault is not one
of the channel. -/
theorem Stuck.step {m : Machine} (h : m.Stuck) : m.step.2.Stuck := by
  rcases h with h | ⟨e, h⟩
  · rw [step_of_stopped (by rw [h]; simp)]
    exact .inl h
  obtain ⟨hs, -⟩ := act_of_step_error h
  obtain ⟨m₁, -, hm⟩ | ⟨e', m₁, ha, hm⟩ := step_cases hs
  · rw [hm] at h
    cases h
  rw [hm]
  by_cases hw : e'.writable = true
  · rw [fail_of_writable hw]
    exact .inl rfl
  rw [fail_of_unwritable (Bool.not_eq_true _ ▸ hw)]
  right
  rcases act_failed ha with ⟨-, rfl⟩ | ⟨target, next, htake, rfl, hread | ⟨-, rfl⟩⟩
  · exact ⟨e, h⟩
  · exact absurd (Channel.fault_of_read_error hread).2 hw
  · -- the next action is the same, and there is still no place for the value
    have hnext : ({ m with channel := m.channel.read.2 } : Machine).next =
        .take (.error e') next := htake
    obtain ⟨m₂, ha₂, -⟩ | ⟨e₂, m₂, -, hm₂⟩ :=
      step_cases (m := { m with channel := m.channel.read.2 }) hs
    · rw [hnext] at ha₂
      simp only [act] at ha₂
      split at ha₂ <;> simp_all
    · exact ⟨e₂, by rw [hm₂]⟩

/-- **A machine that has failed executes nothing more.** -/
theorem Stuck.after {m : Machine} (h : m.Stuck) (n : Nat) : (m.after n).Stuck :=
  after_induction (P := Stuck) (fun _ => Stuck.step) h n

/-- Steps that end with the machine halted have all succeeded. -/
theorem step_ok_of_halted {m : Machine} {k n : Nat} (hk : (m.after k).status = .running)
    (hn : (m.after n).status = .halted) : ∃ s, (m.after k).step.1 = .ok s := by
  cases hstep : (m.after k).step.1 with
  | ok s => exact ⟨s, rfl⟩
  | error e =>
    rcases Nat.le_total k n with hle | hle
    · obtain ⟨d, rfl⟩ := Nat.exists_eq_add_of_le hle
      rw [after_add] at hn
      exact absurd hn ((Stuck.after (.inr ⟨e, hstep⟩) d).not_halted)
    · -- what has halted before stays so
      obtain ⟨d, rfl⟩ := Nat.exists_eq_add_of_le hle
      rw [after_add, after_of_stopped (by rw [hn]; simp), hn] at hk
      cases hk

/-- A machine that steps have halted is halted by its run. -/
theorem run_of_halted {m : Machine} {n : Nat} (hs : m.status = .running)
    (h : (m.after n).status = .halted) : m.run = (.ok .halted, m.after n) := by
  obtain ⟨k, -, hruns⟩ := exists_runs m
  rcases hruns.ends hs with ⟨hok, hhalted, -⟩ | ⟨e, he, -⟩
  · -- whichever of the two comes first, the machine has halted there
    refine Prod.ext hok ?_
    rw [hruns.snd_eq_after] at hhalted ⊢
    rcases Nat.le_total k n with hle | hle
    · obtain ⟨d, rfl⟩ := Nat.exists_eq_add_of_le hle
      rw [after_add, after_of_stopped (m := m.after k) (by rw [hhalted]; simp)]
    · obtain ⟨d, rfl⟩ := Nat.exists_eq_add_of_le hle
      rw [after_add, after_of_stopped (m := m.after n) (by rw [h]; simp)]
  · obtain ⟨j, rfl, hj⟩ := hruns.eq_step
    obtain ⟨s, hok⟩ := step_ok_of_halted (hruns.running hs j (Nat.lt_succ_self j)).1 h
    rw [hj, hok] at he
    cases he

/-- A change of the machine that leaves the status alone, and that comes to the same before and after
an instruction is counted or a failure is recorded. -/
structure Aside (T : Machine → Machine) : Prop where
  status : ∀ m, (T m).status = m.status
  count : ∀ m, T { m with tick := m.tick + 1 } = { T m with tick := (T m).tick + 1 }
  record : ∀ m e, T { m with status := .errored, error := some e } =
    { T m with status := .errored, error := some e }

variable {T : Machine → Machine}

theorem Aside.fail (hT : Aside T) (m : Machine) (e : Fault) : T (m.fail e) = (T m).fail e := by
  cases hw : e.writable with
  | true => rw [fail_of_writable hw, fail_of_writable hw, hT.record]
  | false => rw [fail_of_unwritable hw, fail_of_unwritable hw]

/-- **A change with which the next action commutes commutes with the step.** -/
theorem step_commutes (hT : Aside T) {m : Machine}
    (hact : (T m).act (T m).next = ((m.act m.next).1, T (m.act m.next).2)) :
    (T m).step = (m.step.1, T m.step.2) := by
  by_cases hs : m.status ≠ .running
  · have hs' : (T m).status ≠ .running := by rw [hT.status]; exact hs
    rw [step_of_stopped hs, step_of_stopped hs', hT.status]
  have hs : m.status = .running := Decidable.not_not.1 hs
  have hs' : (T m).status = .running := (hT.status m).trans hs
  cases ha : m.act m.next with
  | mk r m₁ =>
    rw [ha] at hact
    cases r with
    | ok u =>
      rw [step_of_ok hs ha, step_of_ok hs' hact]
      exact Prod.ext (congrArg Except.ok (hT.status m₁)) (hT.count m₁).symm
    | error e =>
      rw [step_of_error hs ha, step_of_error hs' hact, hT.fail]

/-- It is enough that the change commutes with the steps that are taken. -/
theorem after_commutes_of {m : Machine} {n : Nat}
    (h : ∀ k < n, (T (m.after k)).step = ((m.after k).step.1, T (m.after k).step.2)) :
    (T m).after n = T (m.after n) := by
  induction n generalizing m with
  | zero => rfl
  | succ n ih =>
    have h0 : (T m).step = (m.step.1, T m.step.2) := h 0 (by omega)
    rw [after, after, h0]
    exact ih fun k hk => h (k + 1) (by omega)

theorem after_commutes (h : ∀ m, (T m).step = (m.step.1, T m.step.2)) (m : Machine) (n : Nat) :
    (T m).after n = T (m.after n) := after_commutes_of fun _ _ => h _

/-- **A change that commutes with the steps of a run commutes with the run.** -/
theorem Runs.commutes {n : Nat} {m : Machine} {r : Except Fault Status × Machine} (hr : Runs n m r)
    (h : ∀ k < n, (T (m.after k)).step = ((m.after k).step.1, T (m.after k).step.2)) :
    Runs n (T m) (r.1, T r.2) := by
  induction hr with
  | last hm hend =>
    subst hm
    exact .last (h 0 (by omega)) hend
  | @more n m m' r hm _ ih =>
    have h0 : (T m).step = (m.step.1, T m.step.2) := h 0 (by omega)
    have hlater : ∀ k < n, (T (m'.after k)).step = ((m'.after k).step.1, T (m'.after k).step.2) := by
      intro k hk
      have hk' := h (k + 1) (by omega)
      rwa [after, hm] at hk'
    exact .more (by rw [h0, hm]) (ih hlater)

/-- **A change that commutes with every step commutes with the run.** -/
theorem run_commutes (h : ∀ m, (T m).step = (m.step.1, T m.step.2)) (m : Machine) :
    (T m).run = (m.run.1, T m.run.2) := by
  obtain ⟨n, -, hruns⟩ := exists_runs m
  exact (hruns.commutes fun _ _ => h _).run_eq

end Intcode.Machine
