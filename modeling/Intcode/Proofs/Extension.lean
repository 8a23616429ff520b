import Intcode.Proofs.Decoding
import Intcode.Proofs.FaultKind
import Intcode.Proofs.Run

/-!
# More memory

Cells added behind the last one make no difference to a run that ends well: every
address that it uses is inside already, so that each check of an address against the
size comes out as before, and the added cells are never touched.

* `Memory.plan_extend`: what can be done without them is done the same with them.
* `Memory.plan_target?`: what is written is inside.
* `step_extended`: a step that succeeds commutes with the extension.
* `run_extended`: and so does a run that halts.
-/

namespace Intcode

variable {memory : Memory} {ip : Int}

namespace Memory

/-- The memory with cells added behind its last one. -/
def extend (memory : Memory) (extra : Array Int) : Memory := ⟨memory.cells ++ extra⟩

theorem toList_extend (memory : Memory) (extra : Array Int) :
    (memory.extend extra).toList = memory.toList ++ extra.toList := by
  simp [extend, toList]

theorem ofImage_append (A E : List Int) :
    ofImage (A ++ E) = (ofImage A).extend (E.map Word.wrap).toArray := by
  simp [ofImage, extend]

theorem Inside.extend {a : Int} (h : memory.Inside a) (extra : Array Int) :
    (memory.extend extra).Inside a := by
  obtain ⟨h0, h1⟩ := h
  have hsize : (memory.extend extra).size = memory.size + extra.size := by
    simp [Memory.extend, size]
  exact ⟨h0, by omega⟩

theorem read_extend {a v : Int} (h : memory.read a = .ok v) (extra : Array Int) :
    (memory.extend extra).read a = .ok v := by
  rw [read_eq_ok_iff, get?] at h ⊢
  split at h
  · next h0 =>
    have hlt : a.toNat < memory.cells.size := (Array.getElem?_eq_some_iff.1 h).1
    rw [if_pos h0, extend, Array.getElem?_append_left hlt]
    exact h
  · cases h

theorem put_extend {a : Int} (h : memory.Inside a) (v : Int) (extra : Array Int) :
    (memory.extend extra).put a v = (memory.put a v).extend extra := by
  obtain ⟨h0, h1⟩ := h
  unfold size at h1
  have hlt : a.toNat < memory.cells.size := by omega
  rw [put, extend, Array.setIfInBounds_append_left hlt]
  rfl

end Memory

theorem Operand.load_extend {o : Operand} {v : Int} (h : o.load memory = .ok v)
    (extra : Array Int) : o.load (memory.extend extra) = .ok v := by
  cases o with
  | value w => exact h
  | address a => exact Memory.read_extend h extra

theorem Operand.inside_of_target {o : Operand} {a : Int} (h : o.target memory = .ok a) :
    o = .address a ∧ memory.Inside a := by
  cases o with
  | value w => cases h
  | address b =>
    simp only [target, Memory.locate] at h
    split at h
    · next hin => cases h; exact ⟨rfl, hin⟩
    · cases h

theorem Operand.target_extend {o : Operand} {a : Int} (h : o.target memory = .ok a)
    (extra : Array Int) : o.target (memory.extend extra) = .ok a := by
  obtain ⟨rfl, hin⟩ := inside_of_target h
  exact if_pos (hin.extend extra)

theorem Instruction.decode_extend {i : Instruction} (h : decode memory.cells ip = .ok i)
    (extra : Array Int) : decode (memory.extend extra).cells ip = .ok i := by
  obtain ⟨h0, hfits⟩ := decode_fits h
  refine decode_local h fun k hk => ?_
  have hlt : ip.toNat + k < memory.cells.size := by omega
  exact Array.getElem?_append_left hlt

theorem Instruction.action_extend {i : Instruction} (h : (i.action memory ip).fault? = none)
    (extra : Array Int) : i.action (memory.extend extra) ip = i.action memory ip := by
  -- an operand that fails would be the fault of the action
  cases i with
  | binary op left right dest =>
    simp only [action, bind, Except.bind] at h ⊢
    cases hl : left.load memory with
    | error e => rw [hl] at h; cases h
    | ok a =>
      cases hr : right.load memory with
      | error e => rw [hl, hr] at h; cases h
      | ok b =>
        cases hd : dest.target memory with
        | error e => rw [hl, hr, hd] at h; cases h
        | ok address =>
          rw [Operand.load_extend hl extra, Operand.load_extend hr extra,
            Operand.target_extend hd extra]
  | input dest =>
    simp only [action] at h ⊢
    cases hd : dest.target memory with
    | error e => rw [hd] at h; cases h
    | ok address => rw [Operand.target_extend hd extra]
  | output source =>
    simp only [action, bind, Except.bind] at h ⊢
    cases hs : source.load memory with
    | error e => rw [hs] at h; cases h
    | ok v => rw [Operand.load_extend hs extra]
  | jump sense condition target =>
    simp only [action, bind, Except.bind] at h ⊢
    cases hc : condition.load memory with
    | error e => rw [hc] at h; cases h
    | ok c =>
      rw [Operand.load_extend hc extra]
      by_cases htaken : decide (c ≠ 0) = sense
      · simp only [hc, htaken, if_true] at h ⊢
        cases ht : target.load memory with
        | error e => rw [ht] at h; cases h
        | ok v => rw [Operand.load_extend ht extra]
      · simp only [htaken, if_false]
  | halt => rfl

/-- **What can be done without the added cells is done the same with them.** -/
theorem Memory.plan_extend (h : (memory.plan ip).fault? = none) (extra : Array Int) :
    (memory.extend extra).plan ip = memory.plan ip := by
  cases hd : Instruction.decode memory.cells ip with
  | error e =>
    rw [plan_of_decode_error hd] at h
    cases h
  | ok i =>
    rw [plan_of_decode hd] at h ⊢
    rw [plan_of_decode (Instruction.decode_extend hd extra)]
    exact Instruction.action_extend h extra

/-- The address that an action writes to. -/
def Action.target? : Action → Option Int
  | .put address _ _ | .take (.ok address) _ => some address
  | _ => none

theorem Instruction.action_target? {i : Instruction} {a : Int}
    (h : (i.action memory ip).target? = some a) :
    ∃ dest, i.destination? = some dest ∧ dest.target memory = .ok a := by
  have hi := action_belongsTo memory ip i
  cases ha : i.action memory ip with
  | put address value next =>
    rw [ha] at h hi
    obtain ⟨op, left, right, dest, x, y, rfl, -, -, htarget, -, -⟩ := hi
    cases h
    exact ⟨dest, rfl, htarget⟩
  | take target next =>
    rw [ha] at h hi
    obtain ⟨dest, rfl, htarget, -⟩ := hi
    cases target with
    | error e => cases h
    | ok address => cases h; exact ⟨dest, rfl, htarget.symm⟩
  | _ => rw [ha] at h; cases h

/-- **What is written is inside.** -/
theorem Memory.plan_target? {a : Int} (h : (memory.plan ip).target? = some a) : memory.Inside a := by
  cases hd : Instruction.decode memory.cells ip with
  | error e =>
    rw [plan_of_decode_error hd] at h
    cases h
  | ok i =>
    rw [plan_of_decode hd] at h
    obtain ⟨dest, -, htarget⟩ := Instruction.action_target? h
    exact (Operand.inside_of_target htarget).2

namespace Machine

variable {m : Machine}

/-- The machine with cells added to its memory. -/
def extended (extra : Array Int) (m : Machine) : Machine :=
  { m with memory := m.memory.extend extra }

/-- An action that writes inside commutes with the extension. -/
theorem act_extended {a : Action} (h : ∀ address, a.target? = some address → m.memory.Inside address)
    (extra : Array Int) : (m.extended extra).act a = ((m.act a).1, (m.act a).2.extended extra) := by
  cases a with
  | put address value next =>
    have hput := Memory.put_extend (h address rfl) value extra
    simp only [act, extended, hput]
  | take target next =>
    simp only [act, extended]
    cases m.channel.read with
    | mk r channel =>
      cases r with
      | error e => rfl
      | ok v =>
        cases target with
        | error e => rfl
        | ok address =>
          have hput := Memory.put_extend (h address rfl) v extra
          simp only [hput]
  | emit value next =>
    simp only [act, extended]
    cases m.channel.write value with
    | mk r channel => cases r <;> rfl
  | _ => rfl

/-- **A step that succeeds commutes with the extension.** -/
theorem step_extended {s : Status} (h : m.step.1 = .ok s) (extra : Array Int) :
    (m.extended extra).step = (m.step.1, m.step.2.extended extra) := by
  by_cases hs : m.status ≠ .running
  · rw [step_of_stopped hs]
    exact step_of_stopped hs
  obtain ⟨m₁, ha, -⟩ := act_of_step_ok (Decidable.not_not.1 hs) h
  have hlt := lt_of_act_ok ha
  have hnext : m.next = m.memory.plan m.ip := next_of_lt hlt
  -- a success has no fault in it, so that the added cells do not show
  have hsame : (m.extended extra).next = m.next := by
    have hfault := fault?_of_act_ok ha
    rw [hnext] at hfault ⊢
    rw [next_of_lt (m := m.extended extra) hlt]
    exact Memory.plan_extend hfault extra
  refine step_commutes (T := extended extra) ⟨fun _ => rfl, fun _ => rfl, fun _ _ => rfl⟩ ?_
  rw [hsame]
  refine act_extended (fun address haddress => ?_) extra
  rw [hnext] at haddress
  exact Memory.plan_target? haddress

/-- **Added cells make no difference to a run that halts.** If the run on an image halts, then so does
the run on a longer image that begins with it, whatever is read and written: the added cells are as
they were loaded, and all else is the same. -/
theorem run_extended (A E : List Int) (channel : Channel) (L : Int) (lenient : Bool)
    (h : (boot A channel L lenient).run.1 = .ok .halted) :
    let r := (boot A channel L lenient).run
    let r' := (boot (A ++ E) channel L lenient).run
    r'.1 = .ok .halted ∧ r'.2.memory.toList = r.2.memory.toList ++ E.map Word.wrap ∧
      r'.2 = { r.2 with memory := r'.2.memory } := by
  intro r r'
  obtain ⟨n, -, hruns⟩ := exists_runs (boot A channel L lenient)
  have hboot : boot (A ++ E) channel L lenient =
      (boot A channel L lenient).extended (E.map Word.wrap).toArray := by
    simp only [boot, extended, Memory.ofImage_append]
  have hruns' : Runs n (boot (A ++ E) channel L lenient)
      (r.1, r.2.extended (E.map Word.wrap).toArray) := by
    rw [hboot]
    refine hruns.commutes fun k hk => ?_
    obtain ⟨s, hs⟩ := hruns.step_ok h k hk
    exact step_extended hs _
  have hr' : r' = (r.1, r.2.extended (E.map Word.wrap).toArray) := hruns'.run_eq
  rw [hr']
  refine ⟨h, ?_, rfl⟩
  show (r.2.memory.extend _).toList = _
  rw [Memory.toList_extend, List.toList_toArray]

/-- A program that ends with a jump to its last cell, and two cells behind that, one of them too large
for a word. -/
theorem run_extended_echo :
    let r := (boot [3, 0, 4, 0, 1105, 1, 7, 99] (.queue (.ofInputs [5, 6])) 9 false).run
    let r' := (boot [3, 0, 4, 0, 1105, 1, 7, 99, 4294967297, 99] (.queue (.ofInputs [5, 6])) 9 false).run
    r.1 = .ok .halted ∧ r.2.memory.toList = [5, 0, 4, 0, 1105, 1, 7, 99] ∧
      r'.1 = .ok .halted ∧ r'.2.memory.toList = [5, 0, 4, 0, 1105, 1, 7, 99, 1, 99] ∧
      r'.2.channel = .queue ⟨[6], #[5]⟩ := by
  intro r r'
  have hhalt : r.1 = .ok .halted := by rfl
  have hmemory : r.2.memory.toList = [5, 0, 4, 0, 1105, 1, 7, 99] := by rfl
  have hchannel : r.2.channel = .queue ⟨[6], #[5]⟩ := by rfl
  obtain ⟨hhalt', hmemory', hrest⟩ := run_extended [3, 0, 4, 0, 1105, 1, 7, 99] [4294967297, 99]
    (.queue (.ofInputs [5, 6])) 9 false hhalt
  refine ⟨hhalt, hmemory, hhalt', ?_, ?_⟩
  · exact hmemory'.trans (by rw [hmemory]; rfl)
  · exact (congrArg Machine.channel hrest).trans hchannel

end Machine

end Intcode
