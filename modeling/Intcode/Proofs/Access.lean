import Intcode.Proofs.WrittenFaults

/-!
# What an instruction accesses

The execution of an instruction that was decoded fails in two ways only: an address
that it accesses is outside, or the channel fails. Its destination is an address, so
that nothing is ever stored through a value. What is raised is a fault of the one or of
the other family, with one exception: a fixture that expects a number too long to be
written cannot say so.

* `accessed`: the operands that are accessed, which depend on whether a jump is taken
  and on whether there is a value to store.
* `exec_of_outside`, `exec_of_inside`: what becomes of an instruction that accesses an
  address outside, and of one that does not.
* `exec_error`: the two together, for an instruction that was decoded.
* `exec_raised`: what is raised then.
* `exec_faults`: all of it, for any memory and any channel.
* `exec_unwritten`: an output that fails, and not with a fault of the channel.
-/

namespace Intcode

namespace Operand

variable {memory : Memory} {o : Operand}

/-- The address that an operand names, if it is outside. -/
def outside? (memory : Memory) : Operand → Option Int
  | .address a => if memory.Inside a then none else some a
  | .value _ => none

@[simp] theorem outside?_address_eq_none_iff {a : Int} :
    (Operand.address a).outside? memory = none ↔ memory.Inside a := by
  simp [outside?]

theorem outside?_eq_some_iff {a : Int} :
    o.outside? memory = some a ↔ o = .address a ∧ ¬ memory.Inside a := by
  cases o with
  | value v => simp [outside?]
  | address b =>
    by_cases hb : memory.Inside b
    · simp only [outside?, hb, if_true, reduceCtorEq, address.injEq, false_iff]
      rintro ⟨rfl, ha⟩
      exact ha hb
    · simp only [outside?, hb, if_false, Option.some.injEq, address.injEq]
      constructor
      · rintro rfl
        exact ⟨rfl, hb⟩
      · exact fun h => h.1

theorem load_of_outside {a : Int} (h : o.outside? memory = some a) :
    o.load memory = .error (.addressOutside a memory.size) := by
  obtain ⟨rfl, ha⟩ := outside?_eq_some_iff.1 h
  have hnone : memory.get? a = none := by
    rw [← Option.not_isSome_iff_eq_none, Memory.isSome_get?_iff]
    exact ha
  simp only [load, Memory.read, hnone]

theorem load_of_inside (h : o.outside? memory = none) : ∃ v, o.load memory = .ok v := by
  cases o with
  | value v => exact ⟨v, rfl⟩
  | address a =>
    have ha : memory.Inside a := outside?_address_eq_none_iff.1 h
    obtain ⟨v, hv⟩ := Option.isSome_iff_exists.1 (Memory.isSome_get?_iff.2 ha)
    exact ⟨v, by simp only [load, Memory.read, hv]⟩

theorem target_of_outside {a : Int} (h : o.outside? memory = some a) :
    o.target memory = .error (.addressOutside a memory.size) := by
  obtain ⟨rfl, ha⟩ := outside?_eq_some_iff.1 h
  simp only [target, Memory.locate, ha, if_false]

theorem target_of_inside {a : Int} (h : (Operand.address a).outside? memory = none) :
    (Operand.address a).target memory = .ok a := by
  have ha : memory.Inside a := outside?_address_eq_none_iff.1 h
  simp only [target, Memory.locate, ha, if_true]

end Operand

namespace Machine

variable {m : Machine} {i : Instruction} {e : Fault}

/-- The operands that an instruction accesses when it is executed, in order, unless one of them is
outside: the target of a jump only if the jump is taken, and the destination of an input only if there
is a value for it. -/
def accessed (m : Machine) : Instruction → List Operand
  | .binary _ left right dest => [left, right, dest]
  | .input dest =>
    match m.channel.read.1 with
    | .ok _ => [dest]
    | .error _ => []
  | .output source => [source]
  | .jump sense condition target =>
    match m.load condition with
    | .ok c => if decide (c ≠ 0) = sense then [condition, target] else [condition]
    | .error _ => [condition]
  | .halt => []

/-- The first address outside that an instruction accesses. -/
def strays? (m : Machine) (i : Instruction) : Option Int :=
  (m.accessed i).findSome? (Operand.outside? m.memory)

theorem strays?_accessed {a : Int} (h : m.strays? i = some a) :
    .address a ∈ m.accessed i ∧ ¬ m.memory.Inside a := by
  obtain ⟨o, ho, hout⟩ := List.exists_of_findSome?_eq_some h
  obtain ⟨rfl, ha⟩ := Operand.outside?_eq_some_iff.1 hout
  exact ⟨ho, ha⟩

theorem strays?_inside {a : Int} (h : m.strays? i = none) (ha : .address a ∈ m.accessed i) :
    m.memory.Inside a :=
  Operand.outside?_address_eq_none_iff.1 (List.findSome?_eq_none_iff.1 h _ ha)

/-- **An instruction that accesses an address outside fails at the first one.** -/
theorem exec_of_outside {a : Int} (h : m.strays? i = some a) :
    (m.exec i).1 = .error (.addressOutside a m.memory.size) := by
  unfold strays? accessed at h
  cases i with
  | binary op left right dest =>
    simp only [List.findSome?_cons, List.findSome?_nil] at h
    simp only [exec, compute, load, bind, Except.bind]
    cases hl : left.outside? m.memory with
    | some b =>
      rw [hl] at h
      cases h
      rw [Operand.load_of_outside hl]
    | none =>
      obtain ⟨x, hx⟩ := Operand.load_of_inside hl
      rw [hx]
      cases hr : right.outside? m.memory with
      | some b =>
        rw [hl, hr] at h
        cases h
        simp only [Operand.load_of_outside hr]
      | none =>
        obtain ⟨y, hy⟩ := Operand.load_of_inside hr
        cases hd : dest.outside? m.memory with
        | some b =>
          rw [hl, hr, hd] at h
          cases h
          simp only [hy, pure, Except.pure, storeThen, Operand.target_of_outside hd]
        | none =>
          rw [hl, hr, hd] at h
          cases h
  | input dest =>
    simp only [exec]
    cases hread : m.channel.read with
    | mk r channel =>
      rw [hread] at h
      cases r with
      | error e => cases h
      | ok v =>
        have hd : dest.outside? m.memory = some a := by simpa using h
        simp only [storeThen, Operand.target_of_outside hd]
  | output source =>
    have hs : source.outside? m.memory = some a := by simpa using h
    simp only [exec, load, Operand.load_of_outside hs]
  | jump sense condition target =>
    simp only [exec, jumpTarget, load, bind, Except.bind] at h ⊢
    cases hc : condition.outside? m.memory with
    | some b =>
      have hload := Operand.load_of_outside hc
      simp only [hload, List.findSome?_cons, hc] at h
      cases h
      rw [hload]
    | none =>
      obtain ⟨c, hload⟩ := Operand.load_of_inside hc
      by_cases htaken : decide (c ≠ 0) = sense
      · simp only [hload, htaken, if_true, List.findSome?_cons_of_isNone, hc,
          List.findSome?_singleton, Option.isNone_none] at h
        simp only [hload, htaken, if_true, Operand.load_of_outside h]
      · simp only [hload, htaken, if_false, List.findSome?_cons, hc, List.findSome?_nil] at h
        cases h
  | halt => cases h

/-- **An instruction that accesses no address outside** fails with the channel alone, if its
destination is an address. -/
theorem exec_of_inside (hdest : ∀ d, i.destination? = some d → ∃ a, d = .address a)
    (h : m.strays? i = none) (he : (m.exec i).1 = .error e) :
    (∃ dest, i = .input dest ∧ m.channel.read.1 = .error e) ∨
      ∃ source v, i = .output source ∧ m.load source = .ok v ∧ (m.channel.write v).1 = .error e := by
  have hin : ∀ o ∈ m.accessed i, o.outside? m.memory = none := List.findSome?_eq_none_iff.1 h
  unfold accessed at hin
  cases i with
  | binary op left right dest =>
    obtain ⟨x, hx⟩ := Operand.load_of_inside (hin left (by simp))
    obtain ⟨y, hy⟩ := Operand.load_of_inside (hin right (by simp))
    obtain ⟨a, rfl⟩ := hdest dest rfl
    have ht := Operand.target_of_inside (hin (.address a) (by simp))
    simp [exec, compute, load, hx, hy, bind, Except.bind, pure, Except.pure, storeThen, ht] at he
  | input dest =>
    left
    simp only [exec] at he
    cases hread : m.channel.read with
    | mk r channel =>
      rw [hread] at he hin
      cases r with
      | error e' => cases he; exact ⟨dest, rfl, rfl⟩
      | ok v =>
        obtain ⟨a, rfl⟩ := hdest dest rfl
        have ht := Operand.target_of_inside (hin (.address a) (by simp))
        simp [storeThen, ht] at he
  | output source =>
    right
    obtain ⟨v, hv⟩ := Operand.load_of_inside (hin source (by simp))
    refine ⟨source, v, rfl, hv, ?_⟩
    simp only [exec, load, hv, emitThen] at he
    cases hw : m.channel.write v with
    | mk r channel =>
      rw [hw] at he
      cases r with
      | error e' => cases he; rfl
      | ok u => cases he
  | jump sense condition target =>
    simp only [exec, jumpTarget, load, bind, Except.bind] at he hin
    cases hc : condition.load m.memory with
    | error e' =>
      rw [hc] at hin
      obtain ⟨c, hload⟩ := Operand.load_of_inside (hin condition (by simp))
      rw [hc] at hload
      cases hload
    | ok c =>
      rw [hc] at he hin
      by_cases htaken : decide (c ≠ 0) = sense
      · simp only [htaken, if_true] at he hin
        obtain ⟨v, hv⟩ := Operand.load_of_inside (hin target (by simp))
        rw [hv] at he
        cases he
      · simp only [htaken, if_false] at he
        cases he
  | halt => cases he

/-- What an instruction accesses are operands of it. -/
theorem accessed_subset {o : Operand} (h : o ∈ m.accessed i) : o ∈ i.operands := by
  cases i with
  | binary op left right dest => exact h
  | input dest =>
    simp only [accessed] at h
    split at h
    · exact h
    · cases h
  | output source => exact h
  | jump sense condition target =>
    have hfirst : ∀ o ∈ [condition], o ∈ (Instruction.jump sense condition target).operands := by
      simp [Instruction.operands]
    simp only [accessed] at h
    split at h
    · split at h
      · exact h
      · exact hfirst o h
    · exact hfirst o h
  | halt => cases h

/-- **How a decoded instruction fails**: an address that it accesses is outside, or the channel fails
as it reads or writes. -/
theorem exec_error (h : Instruction.decode m.memory.cells m.ip = .ok i)
    (he : (m.exec i).1 = .error e) :
    (∃ a, m.strays? i = some a ∧ e = .addressOutside a m.memory.size) ∨
      (∃ dest, i = .input dest ∧ m.channel.read.1 = .error e) ∨
      ∃ source v, i = .output source ∧ m.load source = .ok v ∧ (m.channel.write v).1 = .error e := by
  cases hstray : m.strays? i with
  | some a =>
    rw [exec_of_outside hstray] at he
    cases he
    exact .inl ⟨a, rfl, rfl⟩
  | none =>
    exact .inr (exec_of_inside (fun d => Instruction.decode_destination h) hstray he)

/-- **A step never stores through a value.** -/
theorem step_ne_storeThroughValue (m : Machine) (v : Int) :
    m.step.1 ≠ .error (.storeThroughValue v) := by
  intro h
  have hcycle : m.cycle.1 = .error (.storeThroughValue v) := by
    rw [cycle_eq_act]
    exact (act_of_step_error h).2
  -- the fault is that of fetching an instruction, or of executing the one fetched
  unfold cycle at hcycle
  cases hf : m.fetch with
  | error e =>
    rw [hf] at hcycle
    cases hcycle
    unfold fetch at hf
    split at hf
    · cases hf
    · rcases Instruction.decode_error hf with hk | hk | hk <;> cases hk
  | ok i =>
    rw [hf] at hcycle
    rcases exec_error (decode_of_fetch hf) hcycle with
      ⟨a, -, ha⟩ | ⟨dest, -, hread⟩ | ⟨source, w, -, -, hwrite⟩
    · cases ha
    · exact Channel.read_error hread
    · exact Channel.write_error hwrite

/-- **What is raised** is a fault of the family of its cause, if memory holds words; unless a fixture
gets a value while it expects one that cannot be written. -/
theorem exec_raised (hm : m.memory.Wordy) (h : Instruction.decode m.memory.cells m.ip = .ok i)
    (he : (m.exec i).1 = .error e) :
    e.kind = e.family ∨
      e.kind = .unwritten ∧ (∃ source, i = .output source) ∧ m.channel.AwaitsUnwritable := by
  rcases exec_error h he with ⟨a, hstray, rfl⟩ | ⟨dest, -, hread⟩ | ⟨source, v, rfl, hload, hwrite⟩
  · left
    obtain ⟨ha, -⟩ := strays?_accessed hstray
    have hword : Word.InRange a := Instruction.decode_wordy hm h _ (accessed_subset ha)
    exact Fault.kind_of_writable (Fault.writable_of_inRange (by simpa [Fault.numbers] using hword))
  · exact .inl (Fault.kind_of_writable (Channel.fault_of_read_error hread).2)
  · cases hw : e.writable with
    | true => exact .inl (Fault.kind_of_writable hw)
    | false =>
      refine .inr ⟨Fault.kind_eq_unwritten_iff.2 hw, ⟨source, rfl⟩, ?_⟩
      by_contra hc
      have hword := Instruction.load_wordy hm h (by simp [Instruction.operands]) hload
      rw [Channel.writable_of_write_error hword hc hwrite] at hw
      cases hw

/-- **Decoded instructions fail for what they access.** The destination of an instruction that was
decoded is an address, and its execution never fails for want of an instruction or of an address. The
cause is out of bounds exactly if an address that it accesses is outside, and else it is one of the
channel, of an input or an output. It is raised as such where memory holds words, as it always does;
but for a fixture that gets a value while it expects one too long to be written. So no step ever stores
through a value. -/
theorem exec_faults (m : Machine) :
    (∀ i, Instruction.decode m.memory.cells m.ip = .ok i →
      (∀ d, i.destination? = some d → ∃ a, d = .address a) ∧
      (∀ e, (m.exec i).1 = .error e → e.kind ≠ .decode ∧ e.kind ≠ .addressing) ∧
      ((∃ e, (m.exec i).1 = .error e ∧ e.family = .bounds) ↔
        ∃ a, .address a ∈ m.accessed i ∧ ¬ m.memory.Inside a) ∧
      (∀ e, (m.exec i).1 = .error e → e.family ≠ .bounds →
        e.family.ofChannel ∧ ((∃ dest, i = .input dest) ∨ ∃ source, i = .output source)) ∧
      (m.memory.Wordy → ∀ e, (m.exec i).1 = .error e → e.kind = e.family ∨
        e.kind = .unwritten ∧ (∃ source, i = .output source) ∧ m.channel.AwaitsUnwritable)) ∧
    ∀ v, m.step.1 ≠ .error (.storeThroughValue v) := by
  refine ⟨?_, step_ne_storeThroughValue m⟩
  intro i h
  -- the two families of the cause
  have hfails : ∀ e, (m.exec i).1 = .error e →
      (∃ a, m.strays? i = some a) ∧ e.family = .bounds ∨
        e.family.ofChannel ∧ ((∃ dest, i = .input dest) ∨ ∃ source, i = .output source) := by
    intro e he
    rcases exec_error h he with ⟨a, hstray, rfl⟩ | ⟨dest, hi, hread⟩ | ⟨source, v, hi, -, hwrite⟩
    · exact .inl ⟨⟨a, hstray⟩, rfl⟩
    · exact .inr ⟨Channel.read_error hread, .inl ⟨dest, hi⟩⟩
    · exact .inr ⟨Channel.write_error hwrite, .inr ⟨source, hi⟩⟩
  refine ⟨fun d => Instruction.decode_destination h, ?_, ⟨?_, ?_⟩, ?_, fun hm e => exec_raised hm h⟩
  · intro e he
    rw [Ne, Ne, Fault.kind_eq_iff (by simp), Fault.kind_eq_iff (by simp)]
    rcases hfails e he with ⟨-, hk⟩ | ⟨hk, -⟩
    · simp [hk]
    · constructor <;> rintro ⟨hfamily, -⟩ <;> rw [hfamily] at hk <;> exact hk
  · rintro ⟨e, he, hfamily⟩
    rcases hfails e he with ⟨⟨a, hstray⟩, -⟩ | ⟨hk, -⟩
    · exact ⟨a, strays?_accessed hstray⟩
    · rw [hfamily] at hk
      exact hk.elim
  · rintro ⟨a, ha, hout⟩
    cases hstray : m.strays? i with
    | none => exact absurd (strays?_inside hstray ha) hout
    | some b => exact ⟨_, exec_of_outside hstray, rfl⟩
  · intro e he hfamily
    rcases hfails e he with ⟨-, hk⟩ | hk
    · exact absurd hk hfamily
    · exact hk

/-- A jump whose target is in a cell outside: not taken it goes on, and taken it fails. -/
theorem exec_faults_jump :
    let m : Int → Machine := fun c =>
      { memory := ⟨#[105, c, 77]⟩, channel := .queue (.ofInputs []), tickLimit := 9 }
    (∀ e, ((m 0).exec (.jump true (.value 0) (.address 77))).1 = .error e → e.kind ≠ .bounds) ∧
      (m 1).memory.Wordy ∧
      ∃ e, ((m 1).exec (.jump true (.value 1) (.address 77))).1 = .error e ∧ e.kind = .bounds := by
  intro m
  have hdecode : ∀ c, Instruction.decode (m c).memory.cells (m c).ip =
      .ok (.jump true (.value c) (.address 77)) := fun c => by rfl
  have hwords : (m 1).memory.Wordy := by
    simp [m, Memory.Wordy, Word.InRange, Word.least, Word.greatest]
  obtain ⟨-, -, hbounds, -⟩ := (exec_faults (m 0)).1 _ (hdecode 0)
  obtain ⟨-, -, hbounds', -, hraised⟩ := (exec_faults (m 1)).1 _ (hdecode 1)
  refine ⟨?_, hwords, ?_⟩
  · intro e he hkind
    obtain ⟨a, ha, -⟩ := hbounds.1 ⟨e, he, ((Fault.kind_eq_iff (by simp)).1 hkind).1⟩
    exact absurd ha (by simp [accessed, load, Operand.load])
  · obtain ⟨e, he, hfamily⟩ := hbounds'.2 ⟨77, by decide, by decide⟩
    rcases hraised hwords e he with hkind | ⟨-, ⟨source, hsource⟩, -⟩
    · exact ⟨e, he, hkind.trans hfamily⟩
    · cases hsource

/-- **An output that fails, and not with a fault of the channel**: a fixture expects a number of one
digit more than can be written, and gets another. -/
theorem exec_unwritten :
    let expected : Int := Nat.pow 10 Numeral.maxDigits
    let m : Machine :=
      { memory := ⟨#[104, 1, 99]⟩, channel := .fixture (.ofLists [] [expected]), tickLimit := 9 }
    Instruction.decode m.memory.cells m.ip = .ok (.output (.value 1)) ∧
      ∃ e, (m.exec (.output (.value 1))).1 = .error e ∧ ¬ e.kind.ofChannel ∧ e.kind ≠ .bounds := by
  intro expected
  have hlong : Numeral.writable expected = false := Numeral.writable_pow
  clear_value expected
  intro m
  have hexpected : (Fixture.ofLists [] [expected]).expected[0]? = some expected := rfl
  obtain ⟨-, hwrite, hwritable⟩ :=
    Fixture.write_of_unwritable hexpected rfl hlong (show Numeral.writable 1 = true by decide)
  have hfails : (m.exec (.output (.value 1))).1 = .error (.wrongOutput 0 expected 1) := by
    simp only [exec, load, Operand.load, emitThen, Channel.write, m, hwrite]
  have hkind : (Fault.wrongOutput 0 expected 1).kind = .unwritten :=
    Fault.kind_eq_unwritten_iff.2 hwritable
  refine ⟨rfl, _, hfails, ?_⟩
  rw [hkind]
  simp [FaultKind.ofChannel]

end Machine

end Intcode
