import Intcode.Proofs.Run

/-!
# What passes between a machine and its channel

A step calls the channel at most once: an input instruction reads from it, and an
output instruction whose source can be loaded writes to it. `exchanges` lists the
calls that steps make, with what came of them.

* `step_channel`, `after_channel_eq`: nothing else touches the channel.
* `step_of_refused`: a call that fails makes the step fail.
-/

namespace Intcode

/-- A call of the channel, with what came of it. -/
inductive Exchange where
  | read (outcome : Except Fault Int)
  | write (value : Int) (outcome : Except Fault Unit)
  deriving Repr

/-- The channel after a call. -/
def Channel.undergo (c : Channel) : Exchange → Channel
  | .read _ => c.read.2
  | .write v _ => (c.write v).2

/-- Why a call failed. -/
def Exchange.fault? : Exchange → Option Fault
  | .read (.error e) | .write _ (.error e) => some e
  | _ => none

/-- The call that an action makes. -/
def Action.exchange? (c : Channel) : Action → Option Exchange
  | .take _ _ => some (.read c.read.1)
  | .emit v _ => some (.write v (c.write v).1)
  | _ => none

namespace Machine

/-- The call that the next step makes. -/
def exchange? (m : Machine) : Option Exchange :=
  match m.status, m.fetch with
  | .running, .ok (.input _) => some (.read m.channel.read.1)
  | .running, .ok (.output source) =>
    (m.load source).toOption.map fun v => .write v (m.channel.write v).1
  | _, _ => none

/-- The calls that `n` steps make, in order. -/
def exchanges : Nat → Machine → List Exchange
  | 0, _ => []
  | n + 1, m => m.exchange?.toList ++ exchanges n m.step.2

variable {m : Machine}

theorem exchange?_of_stopped (h : m.status ≠ .running) : m.exchange? = none := by
  unfold exchange?
  split
  · next hs _ => exact absurd hs h
  · next hs _ => exact absurd hs h
  · rfl

theorem running_of_exchange? {x : Exchange} (h : m.exchange? = some x) : m.status = .running := by
  by_contra hs
  rw [exchange?_of_stopped hs] at h
  cases h

theorem mem_exchanges_iff {x : Exchange} {n : Nat} :
    x ∈ m.exchanges n ↔ ∃ k < n, (m.after k).exchange? = some x := by
  induction n generalizing m with
  | zero => simp [exchanges]
  | succ n ih =>
    rw [exchanges, List.mem_append, Option.mem_toList, ih]
    constructor
    · rintro (hx | ⟨k, hk, hx⟩)
      · exact ⟨0, by omega, hx⟩
      · exact ⟨k + 1, by omega, hx⟩
    · rintro ⟨k, hk, hx⟩
      cases k with
      | zero => exact .inl hx
      | succ k => exact .inr ⟨k, by omega, hx⟩

/-- A machine that runs makes the call of its next action. -/
theorem exchange?_of_running (h : m.status = .running) : m.exchange? = m.next.exchange? m.channel := by
  unfold exchange?
  rw [h]
  cases hf : m.fetch with
  | error e => rw [next_of_fetch_error hf]; rfl
  | ok i =>
    rw [next_of_fetch hf]
    cases i with
    | binary op left right dest =>
      simp only [Instruction.action, bind, Except.bind]
      cases left.load m.memory with
      | error e => rfl
      | ok a =>
        cases right.load m.memory with
        | error e => rfl
        | ok b => cases dest.target m.memory <;> rfl
    | input dest => rfl
    | output source =>
      simp only [Instruction.action, load, bind, Except.bind]
      cases source.load m.memory <;> rfl
    | jump sense condition target =>
      simp only [Instruction.action, bind, Except.bind]
      cases condition.load m.memory with
      | error e => rfl
      | ok c =>
        by_cases htaken : decide (c ≠ 0) = sense
        · simp only [htaken, if_true]
          cases target.load m.memory <;> rfl
        · simp only [htaken, if_false]
          rfl
    | halt => rfl

/-- Only the action to take a value reads. -/
theorem next_of_read {outcome : Except Fault Int} (h : m.exchange? = some (.read outcome)) :
    m.status = .running ∧ outcome = m.channel.read.1 ∧ ∃ target next, m.next = .take target next := by
  have hs := running_of_exchange? h
  rw [exchange?_of_running hs] at h
  cases hnext : m.next with
  | take target next =>
    rw [hnext] at h
    cases h
    exact ⟨hs, rfl, target, next, rfl⟩
  | _ => rw [hnext] at h; cases h

theorem act_channel_eq (m : Machine) (a : Action) :
    (m.act a).2.channel = (a.exchange? m.channel).toList.foldl Channel.undergo m.channel := by
  cases a with
  | take target next =>
    show _ = m.channel.read.2
    simp only [act]
    split <;> next h => rw [h]
  | emit value next =>
    show _ = (m.channel.write value).2
    simp only [act]
    split <;> next h => rw [h]
  | _ => rfl

/-- **A step does to the channel what its call does.** -/
theorem step_channel (m : Machine) :
    m.step.2.channel = m.exchange?.toList.foldl Channel.undergo m.channel := by
  by_cases hs : m.status = .running
  · have hact := act_channel_eq m m.next
    rw [exchange?_of_running hs, ← hact]
    obtain ⟨m₁, ha, hm⟩ | ⟨e, m₁, ha, hm⟩ := step_cases hs
    · rw [hm, ha]
    · rw [hm, ha]
      exact fail_channel m₁ e
  · rw [step_of_stopped hs, exchange?_of_stopped hs]
    rfl

/-- **Steps do to the channel what their calls do.** -/
theorem after_channel_eq (m : Machine) (n : Nat) :
    (m.after n).channel = (m.exchanges n).foldl Channel.undergo m.channel := by
  induction n generalizing m with
  | zero => rfl
  | succ n ih => rw [after, exchanges, List.foldl_append, ih, step_channel]

/-- **A call that fails makes the step fail**, for the same cause. -/
theorem step_of_refused {x : Exchange} {e : Fault} (hx : m.exchange? = some x)
    (he : x.fault? = some e) : m.step.1 = .error e := by
  have hs := running_of_exchange? hx
  -- the action that makes the call fails with it
  have hfail : (m.act m.next).1 = .error e := by
    rw [exchange?_of_running hs] at hx
    cases hnext : m.next with
    | take target next =>
      rw [hnext] at hx
      cases hx
      simp only [act]
      cases hr : m.channel.read with
      | mk r c =>
        rw [hr] at he
        cases r with
        | error e' => cases he; rfl
        | ok v => cases he
    | emit value next =>
      rw [hnext] at hx
      cases hx
      simp only [act]
      cases hw : m.channel.write value with
      | mk r c =>
        rw [hw] at he
        cases r with
        | error e' => cases he; rfl
        | ok u => cases he
    | _ => rw [hnext] at hx; cases hx
  have hact : m.act m.next = (.error e, (m.act m.next).2) := by rw [← hfail]
  rw [step_of_error hs hact]

end Machine

end Intcode
