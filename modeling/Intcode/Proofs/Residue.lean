import Mathlib.Data.Int.ModEq
import Mathlib.Data.List.Forall2
import Intcode.Chain
import Intcode.Proofs.Lockstep

/-!
# Values modulo 2³²

A machine reduces what it loads and what it takes from its channel before it looks at
it. So a run on a queue commutes with the reduction of the values that wait there, and
numbers that are congruent modulo 2³² are the same to it.

* `Word.wrap_eq_wrap_iff`: congruent numbers are reduced to the same word.
* `step_reduced`: a step commutes with the reduction of what waits, and so does a run.
* `run_congruent`: congruent images and inputs give the same run, and congruent
  programs and phases the same signal.
-/

namespace Intcode

/-- Congruent numbers are reduced to the same word, and no others. -/
theorem Word.wrap_eq_wrap_iff {a b : Int} : wrap a = wrap b ↔ a ≡ b [ZMOD 2 ^ 32] := by
  have h32 : (2 : Int) ^ 32 = (4294967296 : Nat) := by rfl
  unfold Int.ModEq wrap
  rw [h32]
  constructor
  · intro h
    rw [← Int.bmod_emod (x := a), ← Int.bmod_emod (x := b), h]
  · intro h
    rw [← Int.emod_bmod (x := a), ← Int.emod_bmod (x := b), h]

/-- Lists that are congruent member by member. -/
def Congruent (xs ys : List Int) : Prop := List.Forall₂ (fun a b => a ≡ b [ZMOD 2 ^ 32]) xs ys

theorem Congruent.map_wrap {xs ys : List Int} (h : Congruent xs ys) :
    xs.map Word.wrap = ys.map Word.wrap := by
  induction h with
  | nil => rfl
  | cons hab _ ih => rw [List.map_cons, List.map_cons, Word.wrap_eq_wrap_iff.2 hab, ih]

/-- What is written to a cell may be reduced first. -/
theorem Memory.put_congr (m : Memory) (a : Int) {v w : Int} (h : Word.wrap v = Word.wrap w) :
    m.put a v = m.put a w := by
  rw [put, put, h]

namespace Channel

/-- The channel with the values that wait on its queue reduced to words. -/
def reduced : Channel → Channel
  | .queue q => .queue { q with pending := q.pending.map Word.wrap }
  | c => c

theorem read_reduced (c : Channel) :
    c.reduced.read.1.map Word.wrap = c.read.1.map Word.wrap ∧
      c.reduced.read.2 = c.read.2.reduced := by
  cases c with
  | queue q =>
    obtain ⟨pending, outputs⟩ := q
    cases pending with
    | nil => exact ⟨rfl, rfl⟩
    | cons v rest =>
      refine ⟨?_, rfl⟩
      show Except.ok (Word.wrap (Word.wrap v)) = Except.ok (Word.wrap v)
      rw [Word.wrap_wrap]
  | fixture f => exact ⟨rfl, rfl⟩
  | terminal t => exact ⟨rfl, rfl⟩

theorem write_reduced (c : Channel) (v : Int) :
    c.reduced.write v = ((c.write v).1, (c.write v).2.reduced) := by
  cases c <;> rfl

end Channel

namespace Machine

/-- The machine with the values that wait on its queue reduced to words. -/
def reduced (m : Machine) : Machine := { m with channel := m.channel.reduced }

/-- **An action commutes with reduction**: what it takes is reduced when it is stored. -/
theorem act_reduced (m : Machine) (a : Action) :
    m.reduced.act a = ((m.act a).1, (m.act a).2.reduced) := by
  cases a with
  | take target next =>
    obtain ⟨hval, hrest⟩ := m.channel.read_reduced
    simp only [act, reduced]
    cases hr : m.channel.read with
    | mk r c =>
      cases hr' : m.channel.reduced.read with
      | mk r' c' =>
        rw [hr, hr'] at hval hrest
        simp only at hval hrest
        subst hrest
        cases r with
        | error e =>
          cases r' with
          | error e' => cases hval; rfl
          | ok v' => cases hval
        | ok v =>
          cases r' with
          | error e' => cases hval
          | ok v' =>
            have hv : Word.wrap v' = Word.wrap v := Except.ok.inj hval
            cases target with
            | error e => rfl
            | ok address => simp only [m.memory.put_congr address hv]
  | emit value next =>
    have hw := m.channel.write_reduced value
    simp only [act, reduced, hw]
    cases m.channel.write value with
    | mk r c => cases r <;> rfl
  | _ => rfl

/-- **A step commutes with reduction.** -/
theorem step_reduced (m : Machine) : m.reduced.step = (m.step.1, m.step.2.reduced) :=
  step_commutes (T := reduced) ⟨fun _ => rfl, fun _ => rfl, fun _ _ => rfl⟩
    (act_reduced m m.next)

/-- Machines on congruent images and congruent input are the same but for reduction. -/
theorem boot_reduced {A B xs ys : List Int} (hA : Congruent A B) (hx : Congruent xs ys) (L : Int)
    (lenient : Bool) : (boot A (.queue (.ofInputs xs)) L lenient).reduced =
      (boot B (.queue (.ofInputs ys)) L lenient).reduced := by
  simp only [boot, reduced, Channel.reduced, Memory.ofImage, Queue.ofInputs, hA.map_wrap,
    hx.map_wrap]

/-- Reduction touches nothing but the values that wait. -/
theorem sameState_of_reduced {m n : Machine} (h : m.reduced = n.reduced) :
    SameState m n ∧ m.error = n.error := by
  have hmemory := congrArg Machine.memory h
  have hip := congrArg Machine.ip h
  have htick := congrArg Machine.tick h
  have hstatus := congrArg Machine.status h
  have herror := congrArg Machine.error h
  exact ⟨⟨hmemory, hip, htick, hstatus⟩, herror⟩

theorem queues_of_reduced {m n : Machine} (h : m.reduced = n.reduced) {p q : Queue}
    (hp : m.channel = .queue p) (hq : n.channel = .queue q) :
    p.outputs = q.outputs ∧ p.pending.length = q.pending.length := by
  have hchannel := congrArg Machine.channel h
  simp only [reduced, hp, hq, Channel.reduced, Channel.queue.injEq, Queue.mk.injEq] at hchannel
  obtain ⟨hpending, houtputs⟩ := hchannel
  have hlen := congrArg List.length hpending
  rw [List.length_map, List.length_map] at hlen
  exact ⟨houtputs, hlen⟩

/-- **At every step machines on congruent numbers are in the same state**, have failed for the same
cause and have written the same values, and equally many values wait. -/
theorem after_congruent {A B xs ys : List Int} (hA : Congruent A B) (hx : Congruent xs ys) (L : Int)
    (lenient : Bool) (k : Nat) :
    let m := (boot A (.queue (.ofInputs xs)) L lenient).after k
    let n := (boot B (.queue (.ofInputs ys)) L lenient).after k
    SameState m n ∧ m.error = n.error ∧
      ∃ p q, m.channel = .queue p ∧ n.channel = .queue q ∧ p.outputs = q.outputs ∧
        p.pending.length = q.pending.length := by
  intro m n
  have hsame : m.reduced = n.reduced := by
    rw [← after_commutes step_reduced, ← after_commutes step_reduced, boot_reduced hA hx]
  obtain ⟨hstate, herror⟩ := sameState_of_reduced hsame
  obtain ⟨p, hp⟩ : ∃ p, m.channel = .queue p := after_queue ⟨_, rfl⟩ k
  obtain ⟨q, hq⟩ : ∃ q, n.channel = .queue q := after_queue ⟨_, rfl⟩ k
  exact ⟨hstate, herror, p, q, hp, hq, queues_of_reduced hsame hp hq⟩

end Machine

namespace Chain

theorem firstOutput?_reduced (m : Machine) : firstOutput? m.reduced = firstOutput? m := by
  unfold firstOutput? Machine.reduced
  cases m.channel <;> rfl

variable {A B : List Int} {L : Int}

/-- A stage passes on the same value for congruent programs and phases. Its complaint may differ, for
it names the phase. -/
theorem runStage_congruent (hA : Congruent A B) {phase phase' : Int}
    (hp : phase ≡ phase' [ZMOD 2 ^ 32]) (stage signal v : Int) :
    Chain.runStage ⟨A, L⟩ stage phase signal = .ok v ↔
      Chain.runStage ⟨B, L⟩ stage phase' signal = .ok v := by
  have hx : Congruent [phase, signal] [phase', signal] := .cons hp (.cons (Int.ModEq.refl _) .nil)
  have hboot : (stageMachine ⟨A, L⟩ phase signal).reduced =
      (stageMachine ⟨B, L⟩ phase' signal).reduced := Machine.boot_reduced hA hx L true
  have hrun := congrArg Machine.run hboot
  rw [Machine.run_commutes Machine.step_reduced, Machine.run_commutes Machine.step_reduced,
    Prod.mk.injEq] at hrun
  rw [runStage_eq_ok_iff, runStage_eq_ok_iff, hrun.1, ← firstOutput?_reduced, hrun.2,
    firstOutput?_reduced]

theorem feed_congruent (hA : Congruent A B) {phases phases' : List Int}
    (hp : Congruent phases phases') (stage : Nat) (signal s : Int) :
    Chain.feed ⟨A, L⟩ stage signal phases = .ok s ↔
      Chain.feed ⟨B, L⟩ stage signal phases' = .ok s := by
  induction hp generalizing stage signal with
  | nil => rfl
  | cons hab _ ih =>
    rw [feed_cons_eq_ok_iff, feed_cons_eq_ok_iff]
    constructor
    · rintro ⟨signal', hstage, hfeed⟩
      exact ⟨signal', (runStage_congruent hA hab _ _ _).1 hstage, (ih _ _).1 hfeed⟩
    · rintro ⟨signal', hstage, hfeed⟩
      exact ⟨signal', (runStage_congruent hA hab _ _ _).2 hstage, (ih _ _).2 hfeed⟩

end Chain

/-- **Runs see values modulo 2³² only.** Machines on congruent images and congruent input are at every
step in the same state, have failed for the same cause and have written the same values, and equally
many values wait; and their runs give the same result. So a chain gives a signal for a program and
phases exactly if it gives this signal for congruent ones. -/
theorem Machine.run_congruent {A B : List Int} (hA : Congruent A B) (L : Int) :
    (∀ (xs ys : List Int) (lenient : Bool), Congruent xs ys →
      let m := boot A (.queue (.ofInputs xs)) L lenient
      let n := boot B (.queue (.ofInputs ys)) L lenient
      (∀ k, SameState (m.after k) (n.after k) ∧ (m.after k).error = (n.after k).error ∧
        ∃ p q, (m.after k).channel = .queue p ∧ (n.after k).channel = .queue q ∧
          p.outputs = q.outputs ∧ p.pending.length = q.pending.length) ∧
      m.run.1 = n.run.1) ∧
    ∀ phases phases' : List Int, Congruent phases phases' →
      ∀ s, Chain.run ⟨A, L⟩ phases = .ok s ↔ Chain.run ⟨B, L⟩ phases' = .ok s := by
  constructor
  · intro xs ys lenient hx m n
    refine ⟨after_congruent hA hx L lenient, ?_⟩
    have hrun := congrArg Machine.run (boot_reduced hA hx L lenient)
    rw [run_commutes step_reduced, run_commutes step_reduced, Prod.mk.injEq] at hrun
    exact hrun.1
  · intro phases phases' hp s
    rw [Chain.run_eq_ok_iff, Chain.run_eq_ok_iff, List.Forall₂.length_eq hp,
      Chain.feed_congruent hA hp]

/-- A program that passes its phase on, with three of its words out of range, and input and phases out
of range as well. -/
theorem Machine.run_congruent_echo :
    let A : List Int := [3, 0, 4, 0, 99]
    let B : List Int := [4294967299, 4294967296, -4294967292, 0, 99]
    Congruent A B ∧
      ((boot B (.queue (.ofInputs [-4294967291])) 9 false).after 3).status = .halted ∧
      Chain.run ⟨B, 9⟩ [4294967297, 2] = .ok 2 := by
  intro A B
  have hA : Congruent A B :=
    .cons (by decide) (.cons (by decide) (.cons (by decide) (.cons rfl (.cons rfl .nil))))
  obtain ⟨hruns, hchain⟩ := Machine.run_congruent hA 9
  have hstate := (hruns [5] [-4294967291] false (.cons (by decide) .nil)).1 3
  have hhalted : ((boot A (.queue (.ofInputs [5])) 9 false).after 3).status = .halted := by
    subst A
    decide +kernel
  have hsignal : Chain.run ⟨A, 9⟩ [1, 2] = .ok 2 := by
    subst A
    decide +kernel
  refine ⟨hA, ?_, ?_⟩
  · rw [← hstate.1.2.2.2]
    exact hhalted
  · exact (hchain [1, 2] [4294967297, 2] (.cons (by decide) (.cons rfl .nil)) 2).1 hsignal

end Intcode
