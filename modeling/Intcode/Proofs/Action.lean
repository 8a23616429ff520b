import Intcode.Machine

/-!
# What a step does

The next action of a machine is a function of its memory and its pointer alone
(`Memory.plan`): to fail, to write a cell, to take a value from the channel, to
emit one, to jump or to stop. Neither the channel nor the count of instructions has
a say in it. `Machine.act` carries an action out.

* `Instruction.action_belongsTo`: which instruction an action comes from.
* `exec_eq_act`: to execute an instruction is to carry out its action.
* `cycle_eq_act`: to fetch and execute is to carry out the next action.
* `next_of_fetch`, `next_of_fetch_error`, `fetch_of_next`: which one that is.
* `step_of_ok`, `step_of_error`: a step counts what succeeded, and records what
  failed.
* `act_changes`: what an action can change.
* `act_tick`, `act_tickLimit`, …: no action touches the bookkeeping. `act_bookkeeping`: nor
  does it look at it.
-/

namespace Intcode

/-- What a machine does next, as far as its memory and its pointer tell. -/
inductive Action where
  /-- Fails. -/
  | refuse (cause : Fault)
  /-- Writes a word to a cell. -/
  | put (address value next : Int)
  /-- Takes a value from the channel, for a cell or in vain. -/
  | take (target : Except Fault Int) (next : Int)
  /-- Writes a value to the channel. -/
  | emit (value next : Int)
  /-- Goes to a pointer. -/
  | goto (next : Int)
  /-- Stops the machine. -/
  | stop
  deriving Repr

/-- The action of a computation, which is to fail if the computation does. -/
def Action.ofExcept : Except Fault Action → Action
  | .ok a => a
  | .error e => .refuse e

/-- The action of an instruction at a pointer. -/
def Instruction.action (memory : Memory) (ip : Int) (i : Instruction) : Action :=
  let next := ip + i.length
  match i with
  | .binary op left right dest => .ofExcept do
    let a ← left.load memory
    let b ← right.load memory
    let address ← dest.target memory
    return .put address (op.apply a b) next
  | .input dest => .take (dest.target memory) next
  | .output source => .ofExcept do
    let v ← source.load memory
    return .emit v next
  | .jump sense condition target => .ofExcept do
    let c ← condition.load memory
    if decide (c ≠ 0) = sense then
      let ip' ← target.load memory
      return .goto ip'
    else return .goto next
  | .halt => .stop

/-- What an action says about the instruction that it belongs to. -/
def Action.BelongsTo (memory : Memory) (ip : Int) (i : Instruction) : Action → Prop
  | .refuse e => ∃ o ∈ i.operands, o.load memory = .error e ∨ o.target memory = .error e
  | .put address value next => ∃ op left right dest a b, i = .binary op left right dest ∧
      left.load memory = .ok a ∧ right.load memory = .ok b ∧ dest.target memory = .ok address ∧
      value = op.apply a b ∧ next = ip + i.length
  | .take target next => ∃ dest, i = .input dest ∧ target = dest.target memory ∧ next = ip + i.length
  | .emit value next => ∃ source, i = .output source ∧ source.load memory = .ok value ∧
      next = ip + i.length
  | .goto next => ∃ sense condition target c, i = .jump sense condition target ∧
      condition.load memory = .ok c ∧
      if decide (c ≠ 0) = sense then target.load memory = .ok next else next = ip + i.length
  | .stop => i = .halt

/-- **The forms of an action, one for each form of instruction**, and the operand that failed. -/
theorem Instruction.action_belongsTo (memory : Memory) (ip : Int) (i : Instruction) :
    (i.action memory ip).BelongsTo memory ip i := by
  cases i with
  | binary op left right dest =>
    simp only [action, bind, Except.bind]
    cases hl : left.load memory with
    | error e => exact ⟨left, by simp [operands], .inl hl⟩
    | ok a =>
      cases hr : right.load memory with
      | error e => exact ⟨right, by simp [operands], .inl hr⟩
      | ok b =>
        cases hd : dest.target memory with
        | error e => exact ⟨dest, by simp [operands], .inr hd⟩
        | ok address => exact ⟨op, left, right, dest, a, b, rfl, hl, hr, hd, rfl, rfl⟩
  | input dest => exact ⟨dest, rfl, rfl, rfl⟩
  | output source =>
    simp only [action, bind, Except.bind]
    cases hs : source.load memory with
    | error e => exact ⟨source, by simp [operands], .inl hs⟩
    | ok v => exact ⟨source, rfl, hs, rfl⟩
  | jump sense condition target =>
    simp only [action, bind, Except.bind]
    cases hc : condition.load memory with
    | error e => exact ⟨condition, by simp [operands], .inl hc⟩
    | ok c =>
      -- the target counts only if the jump is taken
      by_cases h : decide (c ≠ 0) = sense
      · simp only [h, if_true]
        cases ht : target.load memory with
        | error e => exact ⟨target, by simp [operands], .inl ht⟩
        | ok ip' => exact ⟨sense, condition, target, c, rfl, hc, by rw [if_pos h]; exact ht⟩
      · simp only [h, if_false]
        exact ⟨sense, condition, target, c, rfl, hc, by rw [if_neg h]⟩
  | halt => exact rfl

/-- The action at a pointer: that of the instruction there, if there is one. -/
def Memory.plan (memory : Memory) (ip : Int) : Action :=
  .ofExcept ((Instruction.decode memory.cells ip).map (·.action memory ip))

theorem Memory.plan_of_decode {memory : Memory} {ip : Int} {i : Instruction}
    (h : Instruction.decode memory.cells ip = .ok i) : memory.plan ip = i.action memory ip := by
  rw [plan, h]
  rfl

theorem Memory.plan_of_decode_error {memory : Memory} {ip : Int} {e : Fault}
    (h : Instruction.decode memory.cells ip = .error e) : memory.plan ip = .refuse e := by
  rw [plan, h]
  rfl

namespace Machine

/-- The next action of a machine. -/
def next (m : Machine) : Action :=
  if m.tick ≥ m.tickLimit then .refuse (.tickLimit m.tickLimit m.ip) else m.memory.plan m.ip

/-- Carries out an action. -/
def act (m : Machine) : Action → Except Fault Unit × Machine
  | .refuse e => (.error e, m)
  | .put address value next =>
    (.ok (), { m with memory := m.memory.put address value, ip := next })
  | .take target next =>
    match m.channel.read, target with
    | (.ok v, channel), .ok address =>
      (.ok (), { m with memory := m.memory.put address v, channel, ip := next })
    | (.ok _, channel), .error e => (.error e, { m with channel })
    | (.error e, channel), _ => (.error e, { m with channel })
  | .emit value next =>
    match m.channel.write value with
    | (.ok (), channel) => (.ok (), { m with channel, ip := next })
    | (.error e, channel) => (.error e, { m with channel })
  | .goto next => (.ok (), { m with ip := next })
  | .stop => (.ok (), { m with status := .halted })

/-- **To execute an instruction is to carry out its action.** -/
theorem exec_eq_act (m : Machine) (i : Instruction) :
    m.exec i = m.act (i.action m.memory m.ip) := by
  cases i with
  | binary op left right dest =>
    simp only [exec, compute, load, Instruction.action]
    cases left.load m.memory with
    | error e => rfl
    | ok a =>
      cases right.load m.memory with
      | error e => rfl
      | ok b =>
        show m.storeThen dest (op.apply a b) _ = _
        unfold storeThen
        cases dest.target m.memory <;> rfl
  | input dest =>
    -- the value is taken before the destination is looked at
    simp only [exec, Instruction.action, act, storeThen]
    cases m.channel.read with
    | mk r channel => cases r <;> cases dest.target m.memory <;> rfl
  | output source =>
    simp only [exec, load, Instruction.action]
    cases source.load m.memory with
    | error e => rfl
    | ok v =>
      show m.emitThen v _ = m.act (.emit v _)
      unfold emitThen act
      cases m.channel.write v with
      | mk r channel => cases r <;> rfl
  | jump sense condition target =>
    simp only [exec, jumpTarget, load, Instruction.action]
    cases condition.load m.memory with
    | error e => rfl
    | ok c =>
      by_cases h : decide (c ≠ 0) = sense
      · simp only [bind, Except.bind, h, if_true]
        cases target.load m.memory <;> rfl
      · simp only [bind, Except.bind, h, if_false]
        rfl
  | halt => rfl

/-- **To fetch and execute is to carry out the next action.** -/
theorem cycle_eq_act (m : Machine) : m.cycle = m.act m.next := by
  unfold cycle fetch next Memory.plan
  by_cases h : m.tick ≥ m.tickLimit
  · simp only [h, if_true, act]
  · simp only [h, if_false]
    cases Instruction.decode m.memory.cells m.ip with
    | error e => rfl
    | ok i => exact exec_eq_act m i

/-- The next action is that of the instruction fetched. -/
theorem next_of_fetch {m : Machine} {i : Instruction} (h : m.fetch = .ok i) :
    m.next = i.action m.memory m.ip := by
  unfold fetch at h
  unfold next
  split at h
  · cases h
  · next hlim => rw [if_neg hlim, Memory.plan_of_decode h]

/-- Where none is fetched the next action is to fail. -/
theorem next_of_fetch_error {m : Machine} {e : Fault} (h : m.fetch = .error e) :
    m.next = .refuse e := by
  unfold fetch at h
  unfold next
  split at h
  · next hlim => cases h; exact if_pos hlim
  · next hlim => rw [if_neg hlim, Memory.plan_of_decode_error h]

/-- An action other than to fail belongs to the instruction fetched. -/
theorem fetch_of_next {m : Machine} (h : ∀ e, m.next ≠ .refuse e) :
    ∃ i, m.fetch = .ok i ∧ m.next.BelongsTo m.memory m.ip i := by
  cases hf : m.fetch with
  | error e => exact absurd (next_of_fetch_error hf) (h e)
  | ok i =>
    refine ⟨i, rfl, ?_⟩
    rw [next_of_fetch hf]
    exact Instruction.action_belongsTo m.memory m.ip i

/-- A machine that has stopped is left as it is. -/
theorem step_of_stopped {m : Machine} (h : m.status ≠ .running) : m.step = (.ok m.status, m) := by
  unfold step
  split
  · contradiction
  · rfl

/-- A step that succeeds is counted. -/
theorem step_of_ok {m m' : Machine} (h : m.status = .running) (hm : m.act m.next = (.ok (), m')) :
    m.step = (.ok m'.status, { m' with tick := m'.tick + 1 }) := by
  simp only [step, h, cycle_eq_act, hm]

/-- A step that fails leaves its cause behind. -/
theorem step_of_error {m m' : Machine} {e : Fault} (h : m.status = .running)
    (hm : m.act m.next = (.error e, m')) : m.step = (.error e, m'.fail e) := by
  simp only [step, h, cycle_eq_act, hm]

/-- At the limit the next action is to fail. -/
theorem next_of_limit {m : Machine} (h : m.tickLimit ≤ m.tick) :
    m.next = .refuse (.tickLimit m.tickLimit m.ip) := if_pos h

/-- Below the limit the next action is that of the instruction at the pointer. -/
theorem next_of_lt {m : Machine} (h : m.tick < m.tickLimit) : m.next = m.memory.plan m.ip :=
  if_neg (by omega)

/-- **What an action can change**: a cell, the channel and the pointer; or it halts the machine, and
changes nothing else. -/
theorem act_changes (m : Machine) (a : Action) :
    (∃ memory channel ip,
      (memory = m.memory ∨ ∃ address value, memory = m.memory.put address value) ∧
      (m.act a).2 = { m with memory, channel, ip }) ∨
    (m.act a).2 = { m with status := .halted } := by
  cases a with
  | refuse cause => exact .inl ⟨m.memory, m.channel, m.ip, .inl rfl, rfl⟩
  | put address value next => exact .inl ⟨_, m.channel, next, .inr ⟨address, value, rfl⟩, rfl⟩
  | take target next =>
    left
    simp only [act]
    split
    · next v channel address _ =>
      exact ⟨_, channel, next, .inr ⟨address, v, rfl⟩, rfl⟩
    · next channel _ _ => exact ⟨m.memory, channel, m.ip, .inl rfl, rfl⟩
    · next channel _ => exact ⟨m.memory, channel, m.ip, .inl rfl, rfl⟩
  | emit value next =>
    left
    simp only [act]
    split
    · next channel _ => exact ⟨m.memory, channel, next, .inl rfl, rfl⟩
    · next channel _ => exact ⟨m.memory, channel, m.ip, .inl rfl, rfl⟩
  | goto next => exact .inl ⟨m.memory, m.channel, next, .inl rfl, rfl⟩
  | stop => exact .inr rfl

/-- No action touches the count of instructions. -/
@[simp] theorem act_tick (m : Machine) (a : Action) : (m.act a).2.tick = m.tick := by
  obtain ⟨_, _, _, -, h⟩ | h := act_changes m a <;> rw [h]

/-- No action touches the limit. -/
@[simp] theorem act_tickLimit (m : Machine) (a : Action) : (m.act a).2.tickLimit = m.tickLimit := by
  obtain ⟨_, _, _, -, h⟩ | h := act_changes m a <;> rw [h]

/-- No action makes a machine lenient, or the reverse. -/
@[simp] theorem act_lenient (m : Machine) (a : Action) : (m.act a).2.lenient = m.lenient := by
  obtain ⟨_, _, _, -, h⟩ | h := act_changes m a <;> rw [h]

/-- No action looks at the count, at the limit or at whether the machine is lenient. -/
theorem act_bookkeeping (m : Machine) (tick : Nat) (tickLimit : Int) (lenient : Bool) (a : Action) :
    { m with tick, tickLimit, lenient }.act a =
      ((m.act a).1, { (m.act a).2 with tick, tickLimit, lenient }) := by
  cases a with
  | take target next =>
    simp only [act]
    cases m.channel.read with
    | mk r channel => cases r <;> cases target <;> rfl
  | emit value next =>
    simp only [act]
    cases m.channel.write value with
    | mk r channel => cases r <;> rfl
  | _ => rfl

/-- No action records a cause. -/
@[simp] theorem act_error_eq (m : Machine) (a : Action) : (m.act a).2.error = m.error := by
  obtain ⟨_, _, _, -, h⟩ | h := act_changes m a <;> rw [h]

/-- Only the action to stop touches the status. -/
theorem act_status (m : Machine) (a : Action) :
    (m.act a).2.status = m.status ∨ a = .stop ∧ m.act a = (.ok (), { m with status := .halted }) := by
  cases a with
  | stop => exact .inr ⟨rfl, rfl⟩
  | _ => left; simp only [act] <;> split <;> rfl

/-- An action leaves the channel alone, reads from it once or writes to it once. -/
theorem act_channel (m : Machine) (a : Action) :
    (m.act a).2.channel = m.channel ∨ (m.act a).2.channel = m.channel.read.2 ∨
      ∃ v, (m.act a).2.channel = (m.channel.write v).2 := by
  cases a with
  | take target next =>
    right; left
    simp only [act]
    split <;> next h => rw [h]
  | emit value next =>
    right; right
    refine ⟨value, ?_⟩
    simp only [act]
    split <;> next h => rw [h]
  | _ => exact .inl rfl

/-- An action that succeeds was allowed by the limit. -/
theorem lt_of_act_ok {m m' : Machine} (h : m.act m.next = (.ok (), m')) : m.tick < m.tickLimit := by
  by_cases hlt : m.tick < m.tickLimit
  · exact hlt
  · rw [next_of_limit (by omega)] at h
    cases h

/-- **A step of a running machine**: the next action succeeds and is counted, or it fails and its
cause is recorded. -/
theorem step_cases {m : Machine} (h : m.status = .running) :
    (∃ m', m.act m.next = (.ok (), m') ∧ m.step = (.ok m'.status, { m' with tick := m.tick + 1 })) ∨
      ∃ e m', m.act m.next = (.error e, m') ∧ m.step = (.error e, m'.fail e) := by
  have htick := act_tick m m.next
  cases hm : m.act m.next with
  | mk r m' =>
    rw [hm] at htick
    simp only at htick
    cases r with
    | ok u => exact .inl ⟨m', rfl, by rw [← htick]; exact step_of_ok h hm⟩
    | error e => exact .inr ⟨e, m', rfl, step_of_error h hm⟩

/-- The action behind a step that succeeds. -/
theorem act_of_step_ok {m : Machine} {s : Status} (hs : m.status = .running) (h : m.step.1 = .ok s) :
    ∃ m', m.act m.next = (.ok (), m') ∧ m.step = (.ok m'.status, { m' with tick := m.tick + 1 }) := by
  rcases step_cases hs with hok | ⟨e, m₁, -, hm⟩
  · exact hok
  · rw [hm] at h
    cases h

/-- The action behind a step that fails. -/
theorem act_of_step_error {m : Machine} {e : Fault} (h : m.step.1 = .error e) :
    m.status = .running ∧ (m.act m.next).1 = .error e := by
  by_cases hs : m.status = .running
  · obtain ⟨m₁, -, hm⟩ | ⟨e', m₁, ha, hm⟩ := step_cases hs
    · rw [hm] at h
      cases h
    · rw [hm] at h
      cases h
      exact ⟨hs, by rw [ha]⟩
  · rw [step_of_stopped hs] at h
    cases h

end Machine

end Intcode
