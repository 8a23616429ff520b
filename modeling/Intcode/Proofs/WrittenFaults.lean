import Intcode.Proofs.FaultKind
import Intcode.Proofs.Reachable

/-!
# Faults that can be put in words

The text of a fault names numbers, and there is none if one of them is too long. A
machine that holds words names words; what else its faults can name are its pointer,
its limit and the value that a fixture expects. So there is only one way in which a
step can fail without a word of it, as long as pointer and limit can be written: the
fixture waits for a number that cannot.

* `Channel.writable_of_write_error`, `Channel.unwritable_of_write_error`: what goes wrong
  with a write.
* `Fixture.write_of_unwritable`: a fixture that cannot say what it expects.
* `Memory.Wordy.writable_of_plan`: what memory and pointer account for.
* `Machine.writable_of_step_error`: the faults of a step.
* `Machine.step_of_unwritable`: a fault that cannot be written changes nothing.
* `Machine.writable_ip`: the pointer of a machine that was started on an image.
* `Machine.writable_of_run_error`: the faults of a run on a queue.
* `Machine.run_of_unwritable_limit`: a limit that cannot be written, and is reached at once.
-/

namespace Intcode

theorem Fault.writable_of_inRange {e : Fault} (h : ∀ v ∈ e.numbers, Word.InRange v) :
    e.writable = true := by
  rw [writable, Numeral.allWritable, List.all_eq_true]
  exact fun v hv => Word.writable_of_inRange (h v hv)

namespace Channel

/-- Does the channel expect a value next that cannot be written? -/
def AwaitsUnwritable : Channel → Prop
  | .fixture f => ∃ v, f.expected[f.writeCount]? = some v ∧ Numeral.writable v = false
  | _ => False

/-- **What goes wrong with the write of a word** can be written, unless the channel expects a value
that cannot. -/
theorem writable_of_write_error {c : Channel} {v : Int} {e : Fault} (hv : Word.InRange v)
    (hc : ¬ c.AwaitsUnwritable) (h : (c.write v).1 = .error e) : e.writable = true := by
  have hw := Word.writable_of_inRange hv
  cases c with
  | queue q => cases h
  | terminal t =>
    simp only [write, Terminal.write, hw, if_true] at h
    cases h
  | fixture f =>
    simp only [write, Fixture.write] at h
    split at h
    next expected hexpected =>
      split at h <;> cases h
      have hexp : Numeral.writable expected = true := by
        cases hwe : Numeral.writable expected with
        | true => rfl
        | false => exact absurd ⟨expected, hexpected, hwe⟩ hc
      simp [Fault.writable, Fault.numbers, Numeral.allWritable, hexp, hw]
    next =>
      cases h
      simp [Fault.writable, Fault.numbers, Numeral.allWritable, hw]

/-- What goes wrong with a write cannot be written if the channel expects a value that cannot. -/
theorem unwritable_of_write_error {c : Channel} {v : Int} {e : Fault} (hc : c.AwaitsUnwritable)
    (h : (c.write v).1 = .error e) : e.writable = false := by
  cases c with
  | queue q => cases hc
  | terminal t => cases hc
  | fixture f =>
    obtain ⟨expected, hexpected, hlong⟩ := hc
    simp only [write, Fixture.write, hexpected] at h
    split at h <;> cases h
    simp [Fault.writable, Fault.numbers, Numeral.allWritable, hlong]

end Channel

/-- A fixture that expects a value which cannot be written refuses every value that can, but cannot say
so. -/
theorem Fixture.write_of_unwritable {f : Fixture} {n : Nat} {expected v : Int}
    (hexpected : f.expected[n]? = some expected) (hn : f.writeCount = n)
    (hlong : Numeral.writable expected = false) (hv : Numeral.writable v = true) :
    v ≠ expected ∧ f.write v = (.error (.wrongOutput n expected v), f) ∧
      (Fault.wrongOutput n expected v).writable = false := by
  subst hn
  have hne : v ≠ expected := by
    rintro rfl
    rw [hlong] at hv
    cases hv
  have hwrite : f.write v = (.error (.wrongOutput f.writeCount expected v), f) := by
    simp only [write, hexpected, if_neg hne]
  have hfails : ((Channel.fixture f).write v).1 = .error (.wrongOutput f.writeCount expected v) := by
    simp only [Channel.write, hwrite]
  have hawaits : (Channel.fixture f).AwaitsUnwritable := ⟨expected, hexpected, hlong⟩
  exact ⟨hne, hwrite, Channel.unwritable_of_write_error hawaits hfails⟩

/-- What goes wrong with an operand that is a word can be written. -/
theorem Operand.writable_of_error {memory : Memory} {o : Operand} {e : Fault}
    (ho : Word.InRange o.cell) (h : o.load memory = .error e ∨ o.target memory = .error e) :
    e.writable = true := by
  -- all that is named is the operand
  have hnamed : ∀ v ∈ e.numbers, v = o.cell := by
    cases o with
    | value v =>
      rcases h with h | h <;> cases h
      simp [Fault.numbers, cell]
    | address a =>
      rcases h with h | h <;> simp only [load, Memory.read, target, Memory.locate] at h <;>
        split at h <;> cases h <;> simp [Fault.numbers, cell]
  exact Fault.writable_of_inRange fun v hv => hnamed v hv ▸ ho

/-- What is wrong with a word that is no instruction can be written. -/
theorem Opword.writable_of_decode_error {w : Int} {e : Fault} (hw : Word.InRange w)
    (h : Opword.decode w = .error e) : e.writable = true := by
  rcases Opword.decode_eq_error_iff.1 h with ⟨-, rfl⟩ | ⟨-, d, -, rfl⟩ | ⟨-, -, rfl⟩
  · exact Fault.writable_of_inRange (by simpa [Fault.numbers] using hw)
  · rfl
  · refine Fault.writable_of_inRange ?_
    simp only [Fault.numbers, List.mem_singleton, forall_eq, Word.InRange, Word.least, Word.greatest]
    omega

namespace Memory.Wordy

variable {memory : Memory} {ip : Int} {e : Fault}

theorem writable_of_decode_error (hm : memory.Wordy) (hip : Numeral.writable ip = true)
    (h : Instruction.decode memory.cells ip = .error e) : e.writable = true := by
  rcases Instruction.decode_eq_error_iff.1 h with ⟨-, rfl⟩ | ⟨-, hword | ⟨word, -, ⟨-, rfl⟩ | ⟨-, hasm⟩⟩⟩
  · simp [Fault.writable, Fault.numbers, Numeral.allWritable, hip]
  · exact Opword.writable_of_decode_error (hm.getD _) hword
  · rfl
  · rw [(Instruction.assemble_eq_error_iff.1 hasm).1]
    rfl

/-- What the operands of a decoded instruction account for can be written. -/
theorem writable_of_action (hm : memory.Wordy) {i : Instruction}
    (hd : Instruction.decode memory.cells ip = .ok i) (h : (i.action memory ip).fault? = some e) :
    e.writable = true := by
  have hwords := Instruction.decode_wordy hm hd
  have hi := Instruction.action_belongsTo memory ip i
  cases ha : i.action memory ip with
  | refuse e' =>
    rw [ha] at h hi
    cases h
    obtain ⟨o, ho, hfault⟩ := hi
    exact Operand.writable_of_error (hwords o ho) hfault
  | take target next =>
    rw [ha] at h hi
    obtain ⟨dest, rfl, rfl, -⟩ := hi
    cases hd : dest.target memory with
    | error e' =>
      rw [hd] at h
      cases h
      exact Operand.writable_of_error (hwords dest (by simp [Instruction.operands])) (.inr hd)
    | ok address => rw [hd] at h; cases h
  | _ => rw [ha] at h; cases h

/-- **What memory and pointer account for can be written**, if memory holds words and the pointer can
be written. -/
theorem writable_of_plan (hm : memory.Wordy) (hip : Numeral.writable ip = true)
    (h : (memory.plan ip).fault? = some e) : e.writable = true := by
  cases hd : Instruction.decode memory.cells ip with
  | error e' =>
    rw [plan_of_decode_error hd] at h
    cases h
    exact hm.writable_of_decode_error hip hd
  | ok i =>
    rw [plan_of_decode hd] at h
    exact hm.writable_of_action hd h

/-- A place for input that is missing can be named. -/
theorem writable_of_take (hm : memory.Wordy) {next : Int} (h : memory.plan ip = .take (.error e) next) :
    e.writable = true := by
  cases hd : Instruction.decode memory.cells ip with
  | error e' => rw [plan_of_decode_error hd] at h; cases h
  | ok i =>
    rw [plan_of_decode hd] at h
    exact hm.writable_of_action hd (by rw [h]; rfl)

end Memory.Wordy

namespace Machine

variable {m : Machine} {e : Fault}

/-- **The faults of a step** can be written if the machine holds words and its pointer can be written,
unless the channel expects a value that cannot, or the limit is reached and cannot. -/
theorem writable_of_step_error (hm : m.memory.Wordy) (hip : Numeral.writable m.ip = true)
    (hc : ¬ m.channel.AwaitsUnwritable) (h : m.step.1 = .error e) :
    e.writable = true ∨ e = .tickLimit m.tickLimit m.ip ∧ Numeral.writable m.tickLimit = false := by
  by_cases hlt : m.tick < m.tickLimit
  · left
    have hact := (act_of_step_error h).2
    rw [next_of_lt hlt] at hact
    cases hplan : m.memory.plan m.ip with
    | emit v next =>
      rw [hplan] at hact
      simp only [act] at hact
      cases hw : m.channel.write v with
      | mk r channel =>
        rw [hw] at hact
        cases r with
        | ok u => cases hact
        | error e' =>
          cases hact
          exact Channel.writable_of_write_error (hm.plan_emit hplan) hc (by rw [hw])
    | take target next =>
      rw [hplan] at hact
      rcases act_failed (m := m) (a := .take target next) (e := e) (Prod.ext hact rfl) with
        ⟨hne, -⟩ | ⟨_, _, htake, -, hread | ⟨-, htarget⟩⟩
      · exact absurd rfl (hne target next)
      · exact (Channel.fault_of_read_error hread).2
      · cases htake
        exact hm.writable_of_plan hip (by rw [hplan, htarget]; rfl)
    | refuse e' =>
      rw [hplan] at hact
      cases hact
      exact hm.writable_of_plan hip (by rw [hplan]; rfl)
    | _ => rw [hplan] at hact; cases hact
  · have hact := (act_of_step_error h).2
    rw [next_of_limit (by omega)] at hact
    cases hact
    cases hL : Numeral.writable m.tickLimit with
    | false => exact .inr ⟨rfl, rfl⟩
    | true => simp [Fault.writable, Fault.numbers, Numeral.allWritable, hip, hL]

/-- **A fault that cannot be written changes nothing**, if the machine holds words. -/
theorem step_of_unwritable (hm : m.memory.Wordy) (h : m.step.1 = .error e) (hw : e.writable = false) :
    m.step = (.error e, m) := by
  obtain ⟨hs, hact⟩ := act_of_step_error h
  have hcause : m.act m.next = (.error e, (m.act m.next).2) := Prod.ext hact rfl
  rw [step_of_error hs hcause, fail_of_unwritable hw]
  rcases act_failed hcause with ⟨-, hsame⟩ | ⟨target, next, htake, -, hread | ⟨-, rfl⟩⟩
  · rw [hsame]
  · rw [(Channel.fault_of_read_error hread).2] at hw
    cases hw
  · -- the place that is missing can be named
    by_cases hlt : m.tick < m.tickLimit
    · rw [next_of_lt hlt] at htake
      rw [hm.writable_of_take htake] at hw
      cases hw
    · rw [next_of_limit (by omega)] at htake
      cases htake

/-- The pointer of a machine that was started on an image can be written, if the size of the image
can: it is within memory or a word. -/
theorem writable_ip (image : List Int) (channel : Channel) (L : Int) (lenient : Bool)
    (hsize : Numeral.writable image.length = true) (n : Nat) :
    Numeral.writable ((boot image channel L lenient).after n).ip = true := by
  have hboot := boot_sound image channel L lenient
  rcases after_pointer hboot ⟨Int.le_refl 0, Int.natCast_nonneg _⟩ n with ⟨hlow, hhigh⟩ | ⟨k, -, hjump⟩
  · have hcells : ((boot image channel L lenient).after n).memory.size = image.length := by
      rw [(after_sound hboot n).2.size]
      simp [boot, Memory.size, Memory.ofImage]
    rw [hcells] at hhigh
    exact Numeral.writable_of_le hlow hhigh hsize
  · exact Word.writable_of_inRange (hjump.inRange (after_sound hboot k).1.cells)

/-- **The faults of a run on a queue** can be written, unless the limit or the pointer cannot. -/
theorem writable_of_run_error (image inputs : List Int) (L : Int) (lenient : Bool)
    (h : (boot image (.queue (.ofInputs inputs)) L lenient).run.1 = .error e) :
    e.writable = true ∨ Numeral.allWritable
      [L, (boot image (.queue (.ofInputs inputs)) L lenient).run.2.ip] = false := by
  obtain ⟨n, -, hruns⟩ := exists_runs (boot image (.queue (.ofInputs inputs)) L lenient)
  obtain ⟨j, -, hj⟩ := hruns.eq_step
  obtain ⟨hsound, hcont⟩ := after_sound (boot_sound image (.queue (.ofInputs inputs)) L lenient) j
  obtain ⟨q, hq⟩ := after_queue (m := boot image (.queue (.ofInputs inputs)) L lenient) ⟨_, rfl⟩ j
  have hlimit : ((boot image (.queue (.ofInputs inputs)) L lenient).after j).tickLimit = L :=
    hcont.tickLimit
  rw [hj] at h ⊢
  cases hw : e.writable with
  | true => exact .inl rfl
  | false =>
    right
    rw [step_of_unwritable hsound.cells h hw]
    by_contra hall
    simp only [Numeral.allWritable, List.all_cons, List.all_nil, Bool.and_true, Bool.not_eq_false,
      Bool.and_eq_true] at hall
    -- what is named besides the two are words
    rcases writable_of_step_error hsound.cells hall.2 (by rw [hq]; exact id) h with hw' | ⟨-, hL⟩
    · rw [hw] at hw'
      cases hw'
    · rw [hlimit, hall.1] at hL
      cases hL

/-- **A limit that cannot be written, and is reached at once.** What is raised is no fault of the limit,
and the machine is left as it was started. -/
theorem run_of_unwritable_limit (image : List Int) (channel : Channel) (lenient : Bool) {L : Int}
    (hL : L ≤ 0) (hlong : Numeral.writable L = false) :
    let m := boot image channel L lenient
    m.step = (.error (.tickLimit L 0), m) ∧ m.run = (.error (.tickLimit L 0), m) ∧
      (Fault.tickLimit L 0).kind = .unwritten := by
  intro m
  have hwritable : (Fault.tickLimit L 0).writable = false := by
    simp [Fault.writable, Fault.numbers, Numeral.allWritable, hlong]
  have hnext : m.next = .refuse (.tickLimit L 0) := next_of_limit (m := m) hL
  have hstep : m.step = (.error (.tickLimit L 0), m) := by
    rw [step_of_error rfl (by rw [hnext]; rfl), fail_of_unwritable hwritable]
  exact ⟨hstep, (Runs.last hstep (by simp)).run_eq, Fault.kind_eq_unwritten_iff.2 hwritable⟩

end Machine

end Intcode
