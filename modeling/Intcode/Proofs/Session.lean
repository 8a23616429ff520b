import Mathlib.Order.Lattice
import Intcode.Machine.Command
import Intcode.Proofs.WordMemory

/-!
# Sessions with a machine

A session is any sequence of commands, of which any may fail. Whatever is asked of a
machine, its cells stay words and keep their number, its count goes up to the limit
and never back, and once it has stopped it neither runs again nor changes the cause
of its failure.

* `Sound`: what holds of a machine at all times.
* `Continues`: how a machine at one time bears on it at a later time.
* `perform_sound`: a command keeps the one and bears out the other.
* `session_invariant`: and so does every session from the start.
-/

namespace Intcode.Machine

/-- The machine after a sequence of commands, each carried out whether those before it failed or
not. -/
def session (m : Machine) (commands : List Command) : Machine :=
  commands.foldl (fun m command => (m.perform command).2) m

/-- What holds of a machine at all times. -/
structure Sound (m : Machine) : Prop where
  cells : m.memory.Wordy
  tick : (m.tick : Int) ≤ max 0 m.tickLimit
  errored : m.status = .errored → ∃ e, m.error = some e
  stopped : ∀ e, m.error = some e → m.status ≠ .running

/-- What of a machine lasts to a later time. -/
structure Continues (m m' : Machine) : Prop where
  size : m'.memory.size = m.memory.size
  tickLimit : m'.tickLimit = m.tickLimit
  tick : m.tick ≤ m'.tick
  stopped : m.status ≠ .running → m'.status ≠ .running
  halted : m.status = .halted → m'.status = .halted
  error : ∀ e, m.error = some e → m'.error = some e

variable {m m' m'' : Machine}

theorem Continues.refl (m : Machine) : Continues m m :=
  ⟨rfl, rfl, Nat.le_refl _, id, id, fun _ => id⟩

theorem Continues.trans (h : Continues m m') (h' : Continues m' m'') : Continues m m'' :=
  ⟨h'.size.trans h.size, h'.tickLimit.trans h.tickLimit, Nat.le_trans h.tick h'.tick,
    fun hs => h'.stopped (h.stopped hs), fun hs => h'.halted (h.halted hs),
    fun e he => h'.error e (h.error e he)⟩

/-- Cells, channel and pointer may change, as long as memory keeps its size and holds words. -/
theorem Sound.update (h : m.Sound) {memory : Memory} (hcells : memory.Wordy)
    (hsize : memory.size = m.memory.size) (channel : Channel) (ip : Int) :
    Sound { m with memory, channel, ip } ∧ Continues m { m with memory, channel, ip } :=
  ⟨⟨hcells, h.tick, h.errored, h.stopped⟩, ⟨hsize, rfl, Nat.le_refl _, id, id, fun _ => id⟩⟩

/-- So may one cell, whatever is written to it. -/
theorem Sound.put (h : m.Sound) (address value : Int) (channel : Channel) (ip : Int) :
    Sound { m with memory := m.memory.put address value, channel, ip } ∧
      Continues m { m with memory := m.memory.put address value, channel, ip } :=
  h.update (h.cells.put address value) (by simp [Memory.size, Memory.put]) channel ip

/-- A machine may be halted at any time. -/
theorem Sound.halt (h : m.Sound) :
    Sound { m with status := .halted } ∧ Continues m { m with status := .halted } := by
  refine ⟨⟨h.cells, h.tick, ?_, ?_⟩, ⟨rfl, rfl, Nat.le_refl _, ?_, fun _ => rfl, fun _ => id⟩⟩
  · intro hs; cases hs
  · intro e _ hs; cases hs
  · intro _ hs; cases hs

theorem act_sound (h : m.Sound) (a : Action) : (m.act a).2.Sound ∧ Continues m (m.act a).2 := by
  obtain ⟨memory, channel, ip, hmem, hact⟩ | hact := act_changes m a
  · rw [hact]
    rcases hmem with rfl | ⟨address, value, rfl⟩
    · exact h.update h.cells rfl channel ip
    · exact h.put address value channel ip
  · rw [hact]
    exact h.halt

/-- **A step keeps a machine sound.** Its count goes up only below the limit, and a cause is recorded
only where none was. -/
theorem step_sound (h : m.Sound) : m.step.2.Sound ∧ Continues m m.step.2 := by
  by_cases hs : m.status ≠ .running
  · rw [step_of_stopped hs]
    exact ⟨h, Continues.refl m⟩
  have hs : m.status = .running := Decidable.not_not.1 hs
  obtain ⟨hsound, hcont⟩ := act_sound h m.next
  obtain ⟨m₁, ha, hm⟩ | ⟨e, m₁, ha, hm⟩ := step_cases hs
  · rw [ha] at hsound hcont
    rw [hm]
    have hlt := lt_of_act_ok ha
    have hlim := hcont.tickLimit
    refine ⟨⟨hsound.cells, ?_, hsound.errored, hsound.stopped⟩,
      ⟨hcont.size, hlim, Nat.le_succ _, hcont.stopped, hcont.halted, hcont.error⟩⟩
    show ((m.tick + 1 : Nat) : Int) ≤ max 0 m₁.tickLimit
    simp only at hlim
    rw [hlim]
    omega
  · rw [ha] at hsound hcont
    rw [hm]
    by_cases hw : e.writable = true
    · rw [fail_of_writable hw]
      refine ⟨⟨hsound.cells, hsound.tick, fun _ => ⟨e, rfl⟩, ?_⟩,
        ⟨hcont.size, hcont.tickLimit, hcont.tick, ?_, ?_, ?_⟩⟩
      · intro e' _ hrun; cases hrun
      · intro _ hrun; cases hrun
      · intro hhalt
        rw [hs] at hhalt
        cases hhalt
      · -- no cause was recorded while the machine was running
        intro e' he'
        exact absurd hs (h.stopped e' he')
    · -- nothing is recorded now, either
      rw [fail_of_unwritable (Bool.not_eq_true _ ▸ hw)]
      exact ⟨hsound, hcont⟩

/-- Any number of steps do. -/
theorem after_sound (h : m.Sound) (n : Nat) : (m.after n).Sound ∧ Continues m (m.after n) := by
  apply after_induction (P := fun m' => m'.Sound ∧ Continues m m') _ ⟨h, Continues.refl m⟩
  rintro m₁ ⟨hsound, hcont⟩
  obtain ⟨hsound', hcont'⟩ := step_sound hsound
  exact ⟨hsound', hcont.trans hcont'⟩

/-- And so does a run. -/
theorem run_sound (h : m.Sound) : m.run.2.Sound ∧ Continues m m.run.2 := by
  obtain ⟨n, -, hruns⟩ := exists_runs m
  rw [hruns.snd_eq_after]
  exact after_sound h n

theorem store_sound (h : m.Sound) (o : Operand) (value : Int) :
    (m.withMemory (o.store m.memory value)).2.Sound ∧
      Continues m (m.withMemory (o.store m.memory value)).2 := by
  unfold Operand.store
  cases o.target m.memory with
  | error e => exact ⟨h, Continues.refl m⟩
  | ok address => exact h.put address value m.channel m.ip

/-- **A command keeps a machine sound**, whether it succeeds or fails. -/
theorem perform_sound (h : m.Sound) (command : Command) :
    (m.perform command).2.Sound ∧ Continues m (m.perform command).2 := by
  cases command with
  | step => exact step_sound h
  | run => exact run_sound h
  | exec i =>
    show (m.exec i).2.Sound ∧ Continues m (m.exec i).2
    rw [exec_eq_act]
    exact act_sound h _
  | store o value => exact store_sound h o value
  | poke address value => exact store_sound h (.address address) value
  | readInput => exact h.update h.cells rfl m.channel.read.2 m.ip
  | writeOutput value => exact h.update h.cells rfl (m.channel.write value).2 m.ip
  | push value => exact h.update h.cells rfl (m.channel.push value) m.ip
  | setPointer value => exact h.update h.cells rfl m.channel value
  | decode | load | peek | finish => exact ⟨h, Continues.refl m⟩

/-- **Every session keeps a machine sound.** -/
theorem session_sound (h : m.Sound) (commands : List Command) :
    (m.session commands).Sound ∧ Continues m (m.session commands) := by
  induction commands generalizing m with
  | nil => exact ⟨h, Continues.refl m⟩
  | cons command commands ih =>
    obtain ⟨hsound, hcont⟩ := perform_sound h command
    obtain ⟨hsound', hcont'⟩ := ih hsound
    exact ⟨hsound', hcont.trans hcont'⟩

theorem boot_sound (image : List Int) (channel : Channel) (L : Int) (lenient : Bool) :
    (boot image channel L lenient).Sound := by
  refine ⟨Memory.wordy_ofImage image, ?_, ?_, ?_⟩
  · show ((0 : Nat) : Int) ≤ max 0 L
    omega
  · intro hs; cases hs
  · intro e he; cases he

/-- **What holds at every point of a session**, and lasts to every later one. Memory has as many
cells as the image, and they hold words. The count does not go back, and stays within the limit. A
machine that has stopped does not run again, and one that has halted does not fail. A machine that
has failed knows the cause, and a cause that is recorded stays. -/
theorem session_invariant (image : List Int) (channel : Channel) (L : Int) (lenient : Bool)
    (past future : List Command) :
    let m := (boot image channel L lenient).session past
    let m' := m.session future
    m.memory.size = image.length ∧ (∀ v ∈ m.memory.cells, Word.InRange v) ∧
      m.tick ≤ m'.tick ∧ (m.tick : Int) ≤ max 0 L ∧
      (m.status ≠ .running → m'.status ≠ .running) ∧
      (m.status = .halted → m'.status = .halted) ∧
      (m.status = .errored → ∃ e, m.error = some e) ∧
      ∀ e, m.error = some e → m'.error = some e := by
  intro m m'
  obtain ⟨hsound, hcont⟩ := session_sound (boot_sound image channel L lenient) past
  have hlater : Continues m m' := (session_sound hsound future).2
  have hsize : m.memory.size = image.length := hcont.size.trans (Memory.size_ofImage image)
  have htick : (m.tick : Int) ≤ max 0 L := by
    have hlim : m.tickLimit = L := hcont.tickLimit
    rw [← hlim]
    exact hsound.tick
  exact ⟨hsize, hsound.cells, hlater.tick, htick, hlater.stopped, hlater.halted, hsound.errored,
    hlater.error⟩

end Intcode.Machine
