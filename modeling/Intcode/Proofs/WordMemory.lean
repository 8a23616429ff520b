import Intcode.Proofs.Decoding
import Intcode.Proofs.Run

/-!
# Machines hold and write words

Every cell of a machine holds a word from the start, and every write reduces what
it writes. What an instruction loads is a cell or an operand, and operands are
cells too; so what a machine writes to its channel is a word, whatever numbers it
was given.

* `Memory.Wordy.plan_emit`: where memory holds words, only words are emitted.
* `step_wordy`: a step keeps memory and outputs to words.
* `after_wordy`: and so does any number of them.
-/

namespace Intcode

namespace Memory

/-- Does every cell hold a word? -/
def Wordy (m : Memory) : Prop := ∀ v ∈ m.cells, Word.InRange v

/-- A machine loads words. -/
theorem wordy_ofImage (image : List Int) : (ofImage image).Wordy := by
  intro v hv
  simp only [ofImage, List.mem_toArray, List.mem_map] at hv
  obtain ⟨x, -, rfl⟩ := hv
  exact Word.wrap_inRange x

/-- A machine writes words to its cells. -/
theorem Wordy.put {m : Memory} (h : m.Wordy) (a v : Int) : (m.put a v).Wordy := by
  intro w hw
  rcases Array.mem_or_eq_of_mem_setIfInBounds hw with hw | rfl
  · exact h w hw
  · exact Word.wrap_inRange v

theorem Wordy.getD {m : Memory} (h : m.Wordy) (i : Nat) : Word.InRange (m.cells.getD i 0) := by
  by_cases hi : i < m.cells.size
  · simp only [Array.getD, hi, dif_pos]
    exact h _ (Array.getElem_mem hi)
  · simp only [Array.getD, hi, dif_neg, not_false_eq_true]
    decide

theorem Wordy.read {m : Memory} (h : m.Wordy) {a v : Int} (hv : m.read a = .ok v) :
    Word.InRange v := by
  rw [read_eq_ok_iff, get?] at hv
  split at hv
  · exact h v (Array.mem_of_getElem? hv)
  · cases hv

end Memory

/-- The operands of an assembled instruction are the cells behind its word. -/
theorem Instruction.assemble_operands {word : Opword} {a b c : Int} {i : Instruction}
    (h : assemble word a b c = .ok i) : ∀ o ∈ i.operands, o.cell ∈ [a, b, c] := by
  intro o ho
  obtain ⟨-, -, -, hcells⟩ := assemble_eq_ok_iff.1 h
  exact hcells.subset (List.mem_map_of_mem ho)

/-- The operands of a decoded instruction are cells of memory. -/
theorem Instruction.decode_wordy {m : Memory} (hm : m.Wordy) {ip : Int} {i : Instruction}
    (h : decode m.cells ip = .ok i) : ∀ o ∈ i.operands, Word.InRange o.cell := by
  obtain ⟨-, word, -, -, hasm⟩ := decode_eq_ok_iff.1 h
  intro o ho
  have := assemble_operands hasm o ho
  simp only [List.mem_cons, List.not_mem_nil, or_false] at this
  rcases this with h | h | h <;> rw [h] <;> exact hm.getD _

/-- What an operand stands for is a word. -/
theorem Operand.load_wordy {m : Memory} (hm : m.Wordy) {o : Operand} (ho : Word.InRange o.cell)
    {v : Int} (h : o.load m = .ok v) : Word.InRange v := by
  cases o with
  | address i => exact hm.read h
  | value w => cases h; exact ho

/-- What a decoded instruction loads is a word. -/
theorem Instruction.load_wordy {m : Memory} (hm : m.Wordy) {ip : Int} {i : Instruction}
    (h : decode m.cells ip = .ok i) {o : Operand} (ho : o ∈ i.operands) {v : Int}
    (hl : o.load m = .ok v) : Word.InRange v :=
  Operand.load_wordy hm (decode_wordy hm h o ho) hl

/-- **Where memory holds words, only words are emitted.** -/
theorem Memory.Wordy.plan_emit {m : Memory} (hm : m.Wordy) {ip v next : Int}
    (h : m.plan ip = .emit v next) : Word.InRange v := by
  cases hd : Instruction.decode m.cells ip with
  | error e => rw [plan_of_decode_error hd] at h; cases h
  | ok i =>
    rw [plan_of_decode hd] at h
    -- what emits is an output, and its source is a cell of memory
    have hi := Instruction.action_belongsTo m ip i
    rw [h] at hi
    obtain ⟨source, rfl, hload, -⟩ := hi
    exact Instruction.load_wordy hm hd (by simp [Instruction.operands]) hload

namespace Machine

/-- Memory holds words, and what was written to a queue are words. -/
structure Wordy (m : Machine) : Prop where
  memory : m.memory.Wordy
  outputs : ∀ q, m.channel = .queue q → ∀ v ∈ q.outputs, Word.InRange v

/-- An action that emits no other value keeps to words. -/
theorem act_wordy {m : Machine} (h : m.Wordy) {a : Action}
    (ha : ∀ v next, a = .emit v next → Word.InRange v) : (m.act a).2.Wordy := by
  cases a with
  | put address value next => exact ⟨h.memory.put _ _, h.outputs⟩
  | take target next =>
    -- a read leaves what was written alone
    have hread : ∀ q, m.channel.read.2 = .queue q → ∀ v ∈ q.outputs, Word.InRange v := by
      intro q hq
      cases hc : m.channel with
      | queue q₀ =>
        rw [hc] at hq
        cases hq
        rw [Queue.outputs_read]
        exact h.outputs q₀ hc
      | fixture f => rw [hc] at hq; cases hq
      | terminal t => rw [hc] at hq; cases hq
    simp only [act]
    split
    · next hr => rw [hr] at hread; exact ⟨h.memory.put _ _, hread⟩
    · next hr => rw [hr] at hread; exact ⟨h.memory, hread⟩
    · next hr => rw [hr] at hread; exact ⟨h.memory, hread⟩
  | emit value next =>
    have hwrite : ∀ q, (m.channel.write value).2 = .queue q → ∀ v ∈ q.outputs, Word.InRange v := by
      intro q hq v hv
      cases hc : m.channel with
      | queue q₀ =>
        rw [hc] at hq
        cases hq
        rcases Array.mem_push.1 hv with hv | rfl
        · exact h.outputs q₀ hc v hv
        · exact ha v next rfl
      | fixture f => rw [hc] at hq; cases hq
      | terminal t => rw [hc] at hq; cases hq
    simp only [act]
    split
    · next hw => rw [hw] at hwrite; exact ⟨h.memory, hwrite⟩
    · next hw => rw [hw] at hwrite; exact ⟨h.memory, hwrite⟩
  | _ => exact ⟨h.memory, h.outputs⟩

/-- What a machine emits next is a word, if memory holds words. -/
theorem next_emit {m : Machine} (h : m.memory.Wordy) {v next : Int} (hnext : m.next = .emit v next) :
    Word.InRange v := by
  by_cases ht : m.tick < m.tickLimit
  · rw [next_of_lt ht] at hnext; exact h.plan_emit hnext
  · rw [next_of_limit (by omega)] at hnext; cases hnext

/-- **A step keeps to words.** -/
theorem step_wordy {m : Machine} (h : m.Wordy) : m.step.2.Wordy := by
  by_cases hs : m.status ≠ .running
  · rw [step_of_stopped hs]; exact h
  have hact : (m.act m.next).2.Wordy := act_wordy h fun _ _ => next_emit h.memory
  obtain ⟨m₁, ha, hm⟩ | ⟨e, m₁, ha, hm⟩ := step_cases (Decidable.not_not.1 hs)
  · rw [ha] at hact; rw [hm]; exact ⟨hact.memory, hact.outputs⟩
  · rw [ha] at hact
    obtain ⟨_, _, hfail⟩ := fail_changes m₁ e
    rw [hm, hfail]
    exact ⟨hact.memory, hact.outputs⟩

/-- **What a machine holds and has written on a queue are words**, at every point of its work. -/
theorem after_wordy (image inputs : List Int) (L : Int) (lenient : Bool) (n : Nat) :
    ((boot image (.queue (.ofInputs inputs)) L lenient).after n).Wordy := by
  apply after_induction (P := Wordy) (fun _ => step_wordy)
  refine ⟨Memory.wordy_ofImage image, ?_⟩
  intro q hq v hv
  cases hq
  simp [Queue.ofInputs] at hv

end Machine

end Intcode
