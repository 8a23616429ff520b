import Intcode.Proofs.Decoding
import Intcode.Proofs.Run

/-!
# Where faults come from

The faults that memory and pointer alone account for are of three families: there
is no instruction, its destination is no address, or an access is outside. All
others come from the limit or from the channel. The families are those of the causes.

* `Channel.read_error`, `Channel.write_error`: the faults of a channel.
* `Memory.plan_fault?`: the faults that an action brings with it.
* `Machine.step_error`, `Machine.step_refused`: the faults of a step.
* `Machine.run_queue_error`, `Machine.run_limit`: the faults of a run.
-/

namespace Intcode

/-- Is the fault one that a program brings about by itself? -/
def FaultKind.ofProgram : FaultKind → Prop
  | .decode | .addressing | .bounds => True
  | _ => False

/-- Is the fault one of the channel? -/
def FaultKind.ofChannel : FaultKind → Prop
  | .channel | .exhausted | .fixture => True
  | _ => False

/-- The fault that an action brings with it. -/
def Action.fault? : Action → Option Fault
  | .refuse e | .take (.error e) _ => some e
  | _ => none

theorem Operand.load_error {memory : Memory} {o : Operand} {e : Fault}
    (h : o.load memory = .error e) : e.family = .bounds := by
  cases o with
  | value v => cases h
  | address i =>
    simp only [Operand.load, Memory.read] at h
    split at h <;> cases h
    rfl

theorem Operand.target_error {memory : Memory} {o : Operand} {e : Fault}
    (h : o.target memory = .error e) : e.family.ofProgram := by
  cases o with
  | value v => cases h; trivial
  | address i =>
    simp only [Operand.target, Memory.locate] at h
    split at h <;> cases h
    trivial

theorem Instruction.decode_error {cells : Array Int} {offset : Int} {e : Fault}
    (h : decode cells offset = .error e) :
    e.family = .decode ∨ e.family = .bounds ∨ e = .immediateDestination := by
  rcases decode_eq_error_iff.1 h with ⟨-, rfl⟩ | ⟨-, hword | ⟨word, -, ⟨-, rfl⟩ | ⟨-, hasm⟩⟩⟩
  · exact .inr (.inl rfl)
  · rcases Opword.decode_eq_error_iff.1 hword with ⟨-, rfl⟩ | ⟨-, d, -, rfl⟩ | ⟨-, -, rfl⟩ <;>
      exact .inl rfl
  · exact .inl rfl
  · exact .inr (.inr (assemble_eq_error_iff.1 hasm).1)

/-- **The faults of an instruction** are those of its operands. -/
theorem Instruction.action_fault? {memory : Memory} {ip : Int} {i : Instruction} {e : Fault}
    (h : (i.action memory ip).fault? = some e) : e.family.ofProgram := by
  have hi := action_belongsTo memory ip i
  cases ha : i.action memory ip with
  | refuse e' =>
    rw [ha] at h hi
    cases h
    obtain ⟨o, -, ho | ho⟩ := hi
    · rw [Operand.load_error ho]; trivial
    · exact Operand.target_error ho
  | take target next =>
    rw [ha] at h hi
    obtain ⟨dest, -, rfl, -⟩ := hi
    cases hd : dest.target memory with
    | error e' => rw [hd] at h; cases h; exact Operand.target_error hd
    | ok address => rw [hd] at h; cases h
  | _ => rw [ha] at h; cases h

/-- **The faults that memory and pointer account for.** -/
theorem Memory.plan_fault? {memory : Memory} {ip : Int} {e : Fault}
    (h : (memory.plan ip).fault? = some e) : e.family.ofProgram := by
  cases hd : Instruction.decode memory.cells ip with
  | error e' =>
    rw [plan_of_decode_error hd] at h
    cases h
    rcases Instruction.decode_error hd with hk | hk | rfl
    · rw [hk]; trivial
    · rw [hk]; trivial
    · trivial
  | ok i =>
    rw [plan_of_decode hd] at h
    exact Instruction.action_fault? h

theorem Channel.read_error {c : Channel} {e : Fault} (h : c.read.1 = .error e) :
    e.family.ofChannel := by
  rcases (fault_of_read_error h).1 with hk | hk <;> rw [hk] <;> trivial

theorem Channel.write_error {c : Channel} {v : Int} {e : Fault} (h : (c.write v).1 = .error e) :
    e.family.ofChannel := by
  cases c with
  | queue q => cases h
  | terminal t =>
    simp only [write, Terminal.write] at h
    split at h <;> cases h
    trivial
  | fixture f =>
    simp only [write, Fixture.write] at h
    split at h
    · split at h <;> cases h
      trivial
    · cases h; trivial

namespace Machine

/-- An action fails because it has to, or because the channel does. -/
theorem act_error {m : Machine} {a : Action} {e : Fault} (h : (m.act a).1 = .error e) :
    a.fault? = some e ∨ m.channel.read.1 = .error e ∨ ∃ v, (m.channel.write v).1 = .error e := by
  cases a with
  | refuse e' => cases h; exact .inl rfl
  | take target next =>
    simp only [act] at h
    cases hr : m.channel.read with
    | mk r channel =>
      rw [hr] at h
      cases r with
      | error e' => cases h; exact .inr (.inl rfl)
      | ok v =>
        cases target with
        | error e' => cases h; exact .inl rfl
        | ok address => cases h
  | emit value next =>
    simp only [act] at h
    cases hw : m.channel.write value with
    | mk r channel =>
      rw [hw] at h
      cases r with
      | error e' => cases h; exact .inr (.inr ⟨value, by rw [hw]⟩)
      | ok u => cases h
  | _ => cases h

/-- An action that succeeds brings no fault. -/
theorem fault?_of_act_ok {m m' : Machine} {a : Action} (h : m.act a = (.ok (), m')) :
    a.fault? = none := by
  cases a with
  | refuse e => cases h
  | take target next =>
    cases target with
    | ok address => rfl
    | error e =>
      simp only [act] at h
      cases hr : m.channel.read with
      | mk r channel => rw [hr] at h; cases r <;> cases h
  | _ => rfl

/-- **A step fails** for a fault of the program, at the limit, or because the channel fails. -/
theorem step_error {m : Machine} {e : Fault} (h : m.step.1 = .error e) :
    e.family.ofProgram ∨ m.tickLimit ≤ m.tick ∧ e.family = .tickLimit ∨ m.channel.read.1 = .error e ∨
      ∃ v, (m.channel.write v).1 = .error e := by
  rcases act_error (act_of_step_error h).2 with hf | hc
  · by_cases ht : m.tick < m.tickLimit
    · rw [next_of_lt ht] at hf; exact .inl (Memory.plan_fault? hf)
    · rw [next_of_limit (by omega)] at hf; cases hf; exact .inr (.inl ⟨by omega, rfl⟩)
  · exact .inr (.inr hc)

/-- **A step that fails for what it writes** was to write it, and leaves the channel as it was. -/
theorem step_refused {m : Machine} {e : Fault} (h : m.step.1 = .error e) (hf : e.family = .fixture) :
    m.step.2.channel = m.channel ∧
      ∃ v next, m.next = .emit v next ∧ (m.channel.write v).1 = .error e := by
  obtain ⟨hs, hact⟩ := act_of_step_error h
  -- neither the program nor the limit give such a fault
  have hnext : m.next.fault? ≠ some e := by
    intro hfault
    by_cases ht : m.tick < m.tickLimit
    · rw [next_of_lt ht] at hfault
      have hp := Memory.plan_fault? hfault
      rw [hf] at hp
      exact hp
    · rw [next_of_limit (by omega)] at hfault
      cases hfault
      cases hf
  have hcause : m.act m.next = (.error e, (m.act m.next).2) := Prod.ext hact rfl
  have hchannel : m.step.2.channel = (m.act m.next).2.channel := by
    rw [step_of_error hs hcause]
    exact fail_channel _ e
  rw [hchannel]
  rcases act_failed hcause with ⟨hne, hsame⟩ | ⟨target, next, htake, -, hread | ⟨-, htarget⟩⟩
  · refine ⟨by rw [hsame], ?_⟩
    cases hn : m.next with
    | emit v next =>
      refine ⟨v, next, rfl, ?_⟩
      rw [hn] at hact
      simp only [act] at hact
      cases hw : m.channel.write v with
      | mk r channel =>
        rw [hw] at hact
        cases r with
        | ok u => cases hact
        | error e' => cases hact; rfl
    | take target next => exact absurd hn (hne target next)
    | refuse e' =>
      rw [hn] at hact hnext
      cases hact
      exact absurd rfl hnext
    | _ => rw [hn] at hact; cases hact
  · rcases (Channel.fault_of_read_error hread).1 with hk | hk <;> rw [hf] at hk <;> cases hk
  · rw [htake, htarget] at hnext
    exact absurd rfl hnext

/-- **A run on a queue fails** for a fault of the program, at the limit, or because the queue is
empty. -/
theorem run_queue_error {m : Machine} (hq : ∃ q, m.channel = .queue q) {e : Fault}
    (h : m.run.1 = .error e) : e.family.ofProgram ∨ e.family = .tickLimit ∨ e.family = .exhausted := by
  obtain ⟨n, -, hruns⟩ := exists_runs m
  -- the fault is that of the last step, and the channel is a queue there
  obtain ⟨j, -, hj⟩ := hruns.eq_step
  obtain ⟨q, hqj⟩ := after_queue hq j
  rw [hj] at h
  rcases step_error h with hk | ⟨-, hk⟩ | hread | ⟨v, hwrite⟩
  · exact .inl hk
  · exact .inr (.inl hk)
  · rw [hqj] at hread
    simp only [Channel.read, Queue.read] at hread
    split at hread <;> cases hread
    exact .inr (.inr rfl)
  · rw [hqj] at hwrite
    cases hwrite

theorem step_tickLimit (m : Machine) : m.step.2.tickLimit = m.tickLimit := by
  by_cases hs : m.status = .running
  · have hact := act_tickLimit m m.next
    obtain ⟨m', ha, hm⟩ | ⟨e, m', ha, hm⟩ := step_cases hs <;> rw [ha] at hact <;> rw [hm]
    · exact hact
    · exact (fail_tickLimit m' e).trans hact
  · rw [step_of_stopped hs]

/-- **A run that fails at the limit** has executed as many instructions as allowed. -/
theorem run_limit {m : Machine} {e : Fault} (h : m.run.1 = .error e) (hk : e.family = .tickLimit) :
    m.tickLimit ≤ m.run.2.tick := by
  obtain ⟨n, -, hruns⟩ := exists_runs m
  obtain ⟨j, -, hj⟩ := hruns.eq_step
  have hlimit : (m.after j).tickLimit = m.tickLimit :=
    after_induction (P := fun m' => m'.tickLimit = m.tickLimit)
      (fun m' h => (step_tickLimit m').trans h) rfl j
  rw [hj] at h ⊢
  -- neither program nor channel give such a fault, and a step that fails counts for nothing
  have hreached : (m.after j).tickLimit ≤ (m.after j).tick := by
    rcases step_error h with hp | ⟨hreached, -⟩ | hread | ⟨v, hwrite⟩
    · rw [hk] at hp; exact hp.elim
    · exact hreached
    · have hc := Channel.read_error hread
      rw [hk] at hc; exact hc.elim
    · have hc := Channel.write_error hwrite
      rw [hk] at hc; exact hc.elim
  obtain ⟨hok, -⟩ | ⟨-, -, -, -, htick⟩ := step_ends (act_of_step_error h).1 (by rw [h]; simp)
  · rw [h] at hok
    cases hok
  · rw [htick, ← hlimit]
    exact hreached

end Machine

end Intcode
