import Mathlib.Data.List.Perm.Subperm
import Intcode.Proofs.Extension
import Intcode.Proofs.FailedStep

/-!
# The last writer of a cell

A program may overwrite its own instructions, so that where a step writes depends on
what was written before. The history of a machine settles what a cell holds all the
same: it is the word of the value that the last instruction with that destination has
computed, or what was loaded if there was none.

* `Memory.get?_put`: a write inside changes the cell at its address and no other.
* `act_memory`, `step_memory`: a step writes the value of the instruction that it
  executes to the destination of it, or writes nothing.
* `get?_after`, `get?_of_lastWriter`: what a cell holds is what its last writer has
  computed.
* `length_altered_le`: no more cells are altered than instructions were executed.
* `after_lastWriter`: all of it for a machine at the start of an image.
-/

namespace Intcode

theorem Memory.get?_put {memory : Memory} {a : Int} (h : memory.Inside a) (v b : Int) :
    (memory.put a v).get? b = if b = a then some (Word.wrap v) else memory.get? b :=
  get?_write (write_eq_ok_iff.2 ⟨h, rfl⟩) b

/-- An instruction that was executed, with the value that it computed for its destination. -/
structure Execution where
  instruction : Instruction
  value? : Option Int
  deriving DecidableEq, Repr

/-- Is the cell at an address the destination? -/
def Execution.Writes (x : Execution) (address : Int) : Prop :=
  x.instruction.destination? = some (.address address)

instance (x : Execution) (address : Int) : Decidable (x.Writes address) :=
  inferInstanceAs (Decidable (_ = _))

/-- What writes to the channel, jumps or halts has no destination. -/
theorem Execution.Writes.not_mem {x : Execution} {a : Int} (h : x.Writes a) :
    x.instruction.opcode ∉ [.output, .jumpIfTrue, .jumpIfFalse, .halt] := by
  obtain ⟨i, value⟩ := x
  cases i with
  | binary op left right dest => cases op <;> simp [Instruction.opcode, BinaryOp.opcode]
  | input dest => simp [Instruction.opcode]
  | _ => cases h

namespace Machine

/-- The value that an instruction computes for its destination: the result of an operation, or what
the channel has to read. -/
def computed? (m : Machine) : Instruction → Option Int
  | .binary op left right _ => (m.compute op left right).toOption
  | .input _ => m.channel.read.1.toOption
  | _ => none

/-- The instruction that the next step executes, if it executes one and does not fail. -/
def execution? (m : Machine) : Option Execution :=
  match m.status, m.fetch, m.step.1 with
  | .running, .ok i, .ok _ => some ⟨i, m.computed? i⟩
  | _, _, _ => none

/-- The instructions that `n` steps execute, in order. -/
def executions (m : Machine) (n : Nat) : List Execution :=
  (List.range n).filterMap fun k => (m.after k).execution?

/-- The last of the instructions that `n` steps execute whose destination is an address. -/
def lastWriter? (m : Machine) (n : Nat) (address : Int) : Option Execution :=
  (m.executions n).reverse.find? fun x => x.Writes address

variable {m : Machine} {x : Execution}

theorem execution?_of_error {e : Fault} (h : m.step.1 = .error e) : m.execution? = none := by
  unfold execution?
  rw [h]
  split
  · next hok => cases hok
  · rfl

theorem execution?_of_stopped (h : m.status ≠ .running) : m.execution? = none := by
  unfold execution?
  split
  · next hs _ _ => exact absurd hs h
  · rfl

/-- Where the next action succeeds, the instruction that it belongs to is executed. -/
theorem execution?_of_act {m' : Machine} (hs : m.status = .running)
    (ha : m.act m.next = (.ok (), m')) :
    ∃ i, m.next.BelongsTo m.memory m.ip i ∧ m.execution? = some ⟨i, m.computed? i⟩ := by
  have hnot : ∀ e, m.next ≠ .refuse e := by
    intro e he
    rw [he] at ha
    cases ha
  obtain ⟨i, hfetch, hi⟩ := fetch_of_next hnot
  refine ⟨i, hi, ?_⟩
  rw [execution?, hs, hfetch, step_of_ok hs ha]

theorem value?_of_execution? (h : m.execution? = some x) : x.value? = m.computed? x.instruction := by
  unfold execution? at h
  split at h
  · cases h; rfl
  · cases h

/-- **What an action that succeeds does to memory.** The value that its instruction computes goes to the
destination of the instruction, which is inside; without a destination memory stays as it is. -/
theorem act_memory {m' : Machine} {a : Action} {i : Instruction} (ha : m.act a = (.ok (), m'))
    (hi : a.BelongsTo m.memory m.ip i) :
    i.destination? = none ∧ m'.memory = m.memory ∨
      ∃ address v, i.destination? = some (.address address) ∧ m.computed? i = some v ∧
        m.memory.Inside address ∧ m'.memory = m.memory.put address v := by
  -- the form of the action tells the form of the instruction
  cases a with
  | refuse cause => cases ha
  | put address value next =>
    obtain ⟨op, left, right, dest, x, y, rfl, hl, hr, hdest, rfl, -⟩ := hi
    obtain ⟨rfl, hin⟩ := Operand.inside_of_target hdest
    have hvalue : m.computed? (.binary op left right (.address address)) = some (op.apply x y) := by
      simp only [computed?, compute, load, hl, hr]
      rfl
    cases ha
    exact .inr ⟨address, op.apply x y, rfl, hvalue, hin, rfl⟩
  | take target next =>
    obtain ⟨dest, rfl, rfl, -⟩ := hi
    simp only [act] at ha
    split at ha
    · next v channel address hread hdest =>
      obtain ⟨rfl, hin⟩ := Operand.inside_of_target hdest
      have hvalue : m.computed? (.input (.address address)) = some v := by
        simp only [computed?, hread]
        rfl
      cases ha
      exact .inr ⟨address, v, rfl, hvalue, hin, rfl⟩
    · cases ha
    · cases ha
  | emit value next =>
    obtain ⟨source, rfl, -, -⟩ := hi
    simp only [act] at ha
    split at ha
    · cases ha
      exact .inl ⟨rfl, rfl⟩
    · cases ha
  | goto next =>
    obtain ⟨sense, condition, target, c, rfl, -, -⟩ := hi
    cases ha
    exact .inl ⟨rfl, rfl⟩
  | stop =>
    cases hi
    cases ha
    exact .inl ⟨rfl, rfl⟩

/-- **What a step does to memory.** The value of the instruction that it executes goes to the
destination of it; a step that executes none, or one without a destination, leaves memory alone. -/
theorem step_memory (m : Machine) :
    (∀ x, m.execution? = some x → x.instruction.destination? = none) ∧
        m.step.2.memory = m.memory ∨
      ∃ x a v, m.execution? = some x ∧ x.Writes a ∧ x.value? = some v ∧ m.memory.Inside a ∧
        m.step.2.memory = m.memory.put a v := by
  by_cases hs : m.status ≠ .running
  · rw [execution?_of_stopped hs, step_of_stopped hs]
    exact .inl ⟨by simp, rfl⟩
  have hs : m.status = .running := Decidable.not_not.1 hs
  obtain ⟨m₁, ha, hm⟩ | ⟨e, m₁, ha, hm⟩ := step_cases hs
  · obtain ⟨i, hi, hx⟩ := execution?_of_act hs ha
    rw [hx, hm]
    obtain ⟨hnone, hsame⟩ | ⟨a, v, hdest, hvalue, hin, hput⟩ := act_memory ha hi
    · refine .inl ⟨?_, hsame⟩
      rintro x ⟨⟩
      exact hnone
    · exact .inr ⟨_, a, v, rfl, hdest, hvalue, hin, hput⟩
  · rw [execution?_of_error (by rw [hm]), hm]
    refine .inl ⟨by simp, ?_⟩
    -- whatever failed, at most the channel was touched
    show (m₁.fail e).memory = m.memory
    rw [fail_memory]
    obtain ⟨-, rfl⟩ | ⟨target, next, -, rfl, -⟩ := act_failed ha
    · rfl
    · rfl

/-- The cell at an address after a step. -/
theorem get?_step (m : Machine) (b : Int) :
    m.step.2.memory.get? b =
      match m.execution?.filter fun x => x.Writes b with
      | some x => x.value?.map Word.wrap
      | none => m.memory.get? b := by
  obtain ⟨hnone, hsame⟩ | ⟨x, a, v, hx, hw, hv, hin, hput⟩ := step_memory m
  · have hfilter : (m.execution?.filter fun x => x.Writes b) = none := by
      rw [Option.filter_eq_none_iff]
      intro x hx
      simp [Execution.Writes, hnone x hx]
    rw [hfilter, hsame]
  · rw [hx, hput, Memory.get?_put hin]
    by_cases hb : b = a
    · subst hb
      rw [if_pos rfl, Option.filter_some, if_pos (decide_eq_true hw)]
      simp [hv]
    · have hother : ¬ x.Writes b := by
        intro hwb
        have hsame : some (Operand.address b) = some (.address a) := hwb.symm.trans hw
        simp only [Option.some.injEq, Operand.address.injEq] at hsame
        exact hb hsame
      rw [if_neg hb, Option.filter_some, if_neg (by simpa using hother)]

theorem executions_succ (m : Machine) (n : Nat) :
    m.executions (n + 1) = m.executions n ++ (m.after n).execution?.toList := by
  unfold executions
  rw [List.range_succ, List.filterMap_append]
  cases h : (m.after n).execution? <;> simp [h]

/-- The last of some steps counts first. -/
theorem lastWriter?_succ (m : Machine) (n : Nat) (a : Int) :
    m.lastWriter? (n + 1) a =
      ((m.after n).execution?.filter fun x => x.Writes a).or (m.lastWriter? n a) := by
  unfold lastWriter?
  rw [executions_succ, List.reverse_append, List.find?_append]
  congr 1
  cases (m.after n).execution? with
  | none => rfl
  | some x => by_cases hx : x.Writes a <;> simp [hx, Option.filter_some]

/-- **What a cell holds is what its last writer has computed**, or what it held before. -/
theorem get?_after (m : Machine) (n : Nat) (b : Int) :
    (m.after n).memory.get? b =
      match m.lastWriter? n b with
      | some x => x.value?.map Word.wrap
      | none => m.memory.get? b := by
  induction n with
  | zero => rfl
  | succ n ih =>
    rw [after_succ, get?_step, lastWriter?_succ]
    cases (m.after n).execution?.filter fun x => x.Writes b with
    | some x => rfl
    | none => rw [Option.none_or, ih]

/-- A last writer was executed by one of the steps, and has computed a value. -/
theorem lastWriter?_eq_some {n : Nat} {a : Int} (h : m.lastWriter? n a = some x) :
    x ∈ m.executions n ∧ x.Writes a ∧
      ∃ k v, (m.after k).computed? x.instruction = some v ∧ x.value? = some v := by
  have hmem : x ∈ m.executions n := List.mem_reverse.1 (List.mem_of_find?_eq_some h)
  have hw : x.Writes a := by simpa using List.find?_some h
  obtain ⟨k, -, hx⟩ := List.mem_filterMap.1 hmem
  refine ⟨hmem, hw, k, ?_⟩
  obtain ⟨hnone, -⟩ | ⟨x', a', v, hx', -, hv, -⟩ := step_memory (m.after k)
  · rw [Execution.Writes, hnone x hx] at hw
    cases hw
  · rw [hx] at hx'
    cases hx'
    exact ⟨v, by rw [← value?_of_execution? hx, hv], hv⟩

/-- A cell that has a last writer holds the value that the instruction computed when it was executed. -/
theorem get?_of_lastWriter {n : Nat} {a : Int} (h : m.lastWriter? n a = some x) :
    ∃ k v, (m.after k).computed? x.instruction = some v ∧ x.value? = some v ∧
      (m.after n).memory.get? a = some (Word.wrap v) := by
  obtain ⟨-, -, k, v, hcomputed, hv⟩ := lastWriter?_eq_some h
  refine ⟨k, v, hcomputed, hv, ?_⟩
  rw [get?_after, h]
  simp only [hv, Option.map_some]

/-- A comparison computes 0 or 1. -/
theorem computed?_comparison {i : Instruction} {v : Int}
    (hi : i.opcode = .lessThan ∨ i.opcode = .equals) (h : m.computed? i = some v) : v = 0 ∨ v = 1 := by
  cases i with
  | binary op left right dest =>
    simp only [computed?, compute, bind, Except.bind] at h
    cases hl : m.load left with
    | error e => rw [hl] at h; cases h
    | ok a =>
      cases hr : m.load right with
      | error e => rw [hl, hr] at h; cases h
      | ok b =>
        rw [hl, hr] at h
        have hv : op.apply a b = v := Option.some.inj h
        cases op with
        | lessThan => simp only [BinaryOp.apply] at hv; split at hv <;> omega
        | equals => simp only [BinaryOp.apply] at hv; split at hv <;> omega
        | add => rcases hi with hi | hi <;> cases hi
        | multiply => rcases hi with hi | hi <;> cases hi
  | jump sense condition target => cases h
  | input dest => rcases hi with hi | hi <;> cases hi
  | output source => cases h
  | halt => cases h

theorem length_executions_le (m : Machine) (n : Nat) : (m.executions n).length ≤ n := by
  have hle := List.length_filterMap_le (fun k => (m.after k).execution?) (List.range n)
  rwa [List.length_range] at hle

/-- Where every step finds the machine running and succeeds, every step executes an instruction. -/
theorem length_executions {n : Nat}
    (h : ∀ k < n, (m.after k).status = .running ∧ ∃ s, (m.after k).step.1 = .ok s) :
    (m.executions n).length = n := by
  induction n with
  | zero => rfl
  | succ n ih =>
    obtain ⟨hs, s, hok⟩ := h n (by omega)
    obtain ⟨m₁, ha, -⟩ := act_of_step_ok hs hok
    obtain ⟨i, -, hx⟩ := execution?_of_act hs ha
    rw [executions_succ, hx, List.length_append, ih fun k hk => h k (by omega)]
    rfl

/-- The cells whose content is not what it was before `n` steps. -/
def altered (m : Machine) (n : Nat) : List Nat :=
  (List.range m.memory.size).filter fun i => (m.after n).memory.get? i ≠ m.memory.get? i

/-- **No more cells are altered than instructions were executed**: each one that is has a last writer,
and an instruction has one destination. -/
theorem length_altered_le (m : Machine) (n : Nat) :
    (m.altered n).length ≤ (m.executions n).length := by
  have hsub : (m.altered n).map (fun i : Nat => some (Operand.address i)) ⊆
      (m.executions n).map fun x => x.instruction.destination? := by
    intro d hd
    obtain ⟨i, hi, rfl⟩ := List.mem_map.1 hd
    have hne : (m.after n).memory.get? i ≠ m.memory.get? i := by simpa using (List.mem_filter.1 hi).2
    rw [get?_after] at hne
    cases hlast : m.lastWriter? n i with
    | none => rw [hlast] at hne; exact absurd rfl hne
    | some x =>
      obtain ⟨hmem, hw, -⟩ := lastWriter?_eq_some hlast
      exact List.mem_map.2 ⟨x, hmem, hw⟩
  have hnodup : ((m.altered n).map fun i : Nat => some (Operand.address i)).Nodup := by
    refine List.Pairwise.map _ ?_ (List.nodup_range.filter _)
    intro i j hij
    simp only [ne_eq, Option.some.injEq, Operand.address.injEq]
    omega
  have hle := (List.subperm_of_subset hnodup hsub).length_le
  rwa [List.length_map, List.length_map] at hle

theorem get?_boot (image : List Int) (channel : Channel) (L : Int) (lenient : Bool) (i : Nat) :
    (boot image channel L lenient).memory.get? i = image[i]?.map Word.wrap := by
  simp [boot, Memory.get?, Memory.ofImage]

/-- **The last writer decides what a cell holds.** After any number of steps from the start of an
image, a cell holds the word of the value that its last writer has computed, and the word that was
loaded if no instruction executed had it as its destination. Hence

* a step changes one cell at most, and none if it writes to the channel, jumps or halts;
* a cell that a comparison was the last to write holds 0 or 1;
* after `n` steps no more than `n` cells differ from what was loaded.

Steps that succeed on a running machine execute one instruction each. -/
theorem after_lastWriter (image : List Int) (channel : Channel) (L : Int) (lenient : Bool) (n : Nat) :
    let m := boot image channel L lenient
    (∀ i (hi : i < image.length),
      (∃ x v, m.lastWriter? n i = some x ∧ x.value? = some v ∧
        (m.after n).memory.get? i = some (Word.wrap v)) ∨
      m.lastWriter? n i = none ∧ (m.after n).memory.get? i = some (Word.wrap image[i])) ∧
    (∀ k, ∃ a, ∀ b, b ≠ a → (m.after (k + 1)).memory.get? b = (m.after k).memory.get? b) ∧
    (∀ k x, (m.after k).execution? = some x →
      x.instruction.opcode ∈ [.output, .jumpIfTrue, .jumpIfFalse, .halt] →
      (m.after (k + 1)).memory = (m.after k).memory) ∧
    (∀ i x, m.lastWriter? n i = some x →
      x.instruction.opcode = .lessThan ∨ x.instruction.opcode = .equals →
      (m.after n).memory.get? i = some 0 ∨ (m.after n).memory.get? i = some 1) ∧
    (m.altered n).length ≤ n ∧
    ((∀ k < n, (m.after k).status = .running ∧ ∃ s, (m.after k).step.1 = .ok s) →
      (m.executions n).length = n) := by
  intro m
  refine ⟨?_, ?_, ?_, ?_, ?_, length_executions⟩
  · intro i hi
    cases hlast : m.lastWriter? n i with
    | some x =>
      obtain ⟨-, v, -, hv, hcell⟩ := get?_of_lastWriter hlast
      exact .inl ⟨x, v, rfl, hv, hcell⟩
    | none =>
      refine .inr ⟨rfl, ?_⟩
      rw [get?_after, hlast]
      show m.memory.get? i = _
      rw [get?_boot, List.getElem?_eq_getElem hi]
      rfl
  · intro k
    rw [after_succ]
    obtain ⟨-, hsame⟩ | ⟨x, a, v, -, -, -, hin, hput⟩ := step_memory (m.after k)
    · exact ⟨0, fun b _ => by rw [hsame]⟩
    · refine ⟨a, ?_⟩
      intro b hb
      rw [hput, Memory.get?_put hin, if_neg hb]
  · intro k x hx hop
    rw [after_succ]
    obtain ⟨-, hsame⟩ | ⟨x', a, v, hx', hw, -⟩ := step_memory (m.after k)
    · exact hsame
    · rw [hx] at hx'
      cases hx'
      exact absurd hop hw.not_mem
  · intro i x hlast hop
    obtain ⟨k, v, hcomputed, -, hcell⟩ := get?_of_lastWriter hlast
    rw [hcell]
    rcases computed?_comparison hop hcomputed with rfl | rfl
    · exact .inl rfl
    · exact .inr rfl
  · exact Nat.le_trans (length_altered_le m n) (length_executions_le m n)

/-- A product too large for a word replaces the instruction that computed it, and a comparison replaces
an operand of that instruction. -/
theorem after_lastWriter_overwritten :
    let m := boot [1102, 65536, 65537, 0, 1107, 3, 4, 1, 99] (.queue (.ofInputs [])) 9 false
    m.lastWriter? 2 0 = some ⟨.binary .multiply (.value 65536) (.value 65537) (.address 0),
        some 4295032832⟩ ∧
      (m.after 2).memory.get? 0 = some 65536 ∧
      ((m.after 2).memory.get? 1 = some 0 ∨ (m.after 2).memory.get? 1 = some 1) ∧
      (m.after 2).memory.get? 2 = some 65537 ∧ (m.executions 2).length = 2 := by
  intro m
  have hzero : m.lastWriter? 2 0 = some ⟨.binary .multiply (.value 65536) (.value 65537) (.address 0),
      some 4295032832⟩ := by subst m; decide +kernel
  have hone : m.lastWriter? 2 1 = some ⟨.binary .lessThan (.value 3) (.value 4) (.address 1),
      some 1⟩ := by subst m; decide +kernel
  have htwo : m.lastWriter? 2 2 = none := by subst m; decide +kernel
  have hsteps : ∀ k < 2, (m.after k).status = .running ∧ ∃ s, (m.after k).step.1 = .ok s := by
    have hrunning : (m.after 2).status = .running ∧ (m.after 2).tick = m.tick + 2 := by
      subst m
      decide +kernel
    intro k hk
    obtain ⟨hstep, -⟩ := after_running hrunning.1 hrunning.2 k hk
    exact ⟨(step_running hstep).1, .running, by rw [hstep]⟩
  obtain ⟨hcell, -, -, hcomparison, -, hlength⟩ := after_lastWriter
    [1102, 65536, 65537, 0, 1107, 3, 4, 1, 99] (.queue (.ofInputs [])) 9 false 2
  refine ⟨hzero, ?_, hcomparison 1 _ hone (.inl rfl), ?_, hlength hsteps⟩
  · obtain ⟨x, v, hx, hv, hget⟩ | ⟨hnone, -⟩ := hcell 0 (by decide)
    · obtain rfl := Option.some.inj (hx.symm.trans hzero)
      obtain rfl := Option.some.inj hv
      have hwrap : Word.wrap 4295032832 = 65536 := by decide
      rw [hwrap] at hget
      exact hget
    · rw [Int.natCast_zero, hzero] at hnone
      cases hnone
  · obtain ⟨x, v, hx, -⟩ | ⟨-, hget⟩ := hcell 2 (by decide)
    · cases htwo.symm.trans hx
    · exact hget

end Machine

end Intcode
