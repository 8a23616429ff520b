import Intcode.Proofs.WordMemory

/-!
# Machines in lockstep

Two machines that hold words and differ in their channels alone take the same steps as
long as the channels deliver the same values. This holds for channels of different kinds,
whose faults may differ in their wording: what counts is the family of a fault.
The second channel may also refuse a value that the first one takes; that ends the
comparison.

* `Channel.Lockstep`: what two channels have to do for each other.
* `step_beside`: machines side by side stay so, or the second one fails.
* `Runs.beside`: and so do their runs.
-/

namespace Intcode

/-- The same result, or faults that are raised as of the same family. -/
def SameOutcome {α : Type} : Except Fault α → Except Fault α → Prop
  | .ok a, .ok b => a = b
  | .error e, .error e' => e.kind = e'.kind
  | _, _ => False

/-- Of two such results both are a success with a given value, or neither is. -/
theorem SameOutcome.eq_ok_iff {α : Type} {r s : Except Fault α} (h : SameOutcome r s) {a : α} :
    r = .ok a ↔ s = .ok a := by
  cases r with
  | error e =>
    cases s with
    | error e' => simp
    | ok b => exact h.elim
  | ok b =>
    cases s with
    | error e' => exact h.elim
    | ok b' =>
      have hb : b = b' := h
      rw [hb]

/-- Faults that are raised as of the same family can be written both, or neither. -/
theorem Fault.writable_eq_of_kind {e e' : Fault} (h : e.kind = e'.kind) : e.writable = e'.writable := by
  have hiff : e.writable = false ↔ e'.writable = false := by
    rw [← Fault.kind_eq_unwritten_iff, ← Fault.kind_eq_unwritten_iff, h]
  cases hw : e.writable with
  | true =>
    cases hw' : e'.writable with
    | true => rfl
    | false => rw [hiff.2 hw'] at hw; cases hw
  | false => exact (hiff.1 hw).symm

/-- Where the second result is a failure, so is the first. -/
theorem SameOutcome.left_error {α : Type} {r s : Except Fault α} (h : SameOutcome r s) {e : Fault}
    (hs : s = .error e) : ∃ e', r = .error e' ∧ e'.kind = e.kind := by
  subst hs
  cases r with
  | error e' => exact ⟨e', rfl, h⟩
  | ok a => exact h.elim

/-- Channels related by `R` deliver the same values. The first one takes every word, and the second
one takes it too or refuses it for a reason that `Refused` records of the first and its further
traffic does not lift. -/
structure Channel.Lockstep (R : Channel → Channel → Prop) (Refused : Channel → Fault → Prop) :
    Prop where
  read : ∀ {c d}, R c d → SameOutcome c.read.1 d.read.1 ∧ R c.read.2 d.read.2
  write : ∀ {c d v}, Word.InRange v → R c d → (c.write v).1 = .ok () ∧
    ((d.write v).1 = .ok () ∧ R (c.write v).2 (d.write v).2 ∨
      ∃ e, (d.write v).1 = .error e ∧ Refused (c.write v).2 e)
  refused_read : ∀ {c e}, Refused c e → Refused c.read.2 e
  refused_write : ∀ {c e} v, Refused c e → Refused (c.write v).2 e

namespace Machine

/-- The same memory, pointer, count and status. -/
def SameState (m n : Machine) : Prop :=
  m.memory = n.memory ∧ m.ip = n.ip ∧ m.tick = n.tick ∧ m.status = n.status

/-- Two machines side by side: all but their channels is the same, and those are related. Both hold
words. -/
structure Beside (R : Channel → Channel → Prop) (m n : Machine) : Prop where
  memory : m.memory = n.memory
  ip : m.ip = n.ip
  tick : m.tick = n.tick
  tickLimit : m.tickLimit = n.tickLimit
  status : m.status = n.status
  channel : R m.channel n.channel
  words : m.memory.Wordy

variable {R : Channel → Channel → Prop} {Refused : Channel → Fault → Prop} {m n : Machine}

theorem Beside.sameState (h : Beside R m n) : SameState m n := ⟨h.memory, h.ip, h.tick, h.status⟩

/-- Machines side by side have the same thing to do. -/
theorem Beside.next (h : Beside R m n) : m.next = n.next := by
  unfold Machine.next
  rw [h.memory, h.ip, h.tick, h.tickLimit]

/-- **An action keeps machines side by side**, unless the second channel refuses a value. -/
theorem act_beside (hR : Channel.Lockstep R Refused) (h : Beside R m n) {a : Action}
    (ha : ∀ v next, a = .emit v next → Word.InRange v) :
    SameOutcome (m.act a).1 (n.act a).1 ∧ Beside R (m.act a).2 (n.act a).2 ∨
      ∃ e, (m.act a).1 = .ok () ∧ (n.act a).1 = .error e ∧ Refused (m.act a).2.channel e := by
  obtain ⟨hmem, hip, htick, hlim, hst, hch, hwords⟩ := h
  cases a with
  | refuse e => exact .inl ⟨rfl, hmem, hip, htick, hlim, hst, hch, hwords⟩
  | put address value next =>
    exact .inl ⟨rfl, by simp only [act, hmem], rfl, htick, hlim, hst, hch, hwords.put _ _⟩
  | take target next =>
    obtain ⟨hsame, hch'⟩ := hR.read hch
    simp only [act]
    cases hm : m.channel.read with
    | mk r c =>
      cases hn : n.channel.read with
      | mk s d =>
        rw [hm, hn] at hsame hch'
        left
        cases r with
        | error e =>
          cases s with
          | error e' => exact ⟨hsame, hmem, hip, htick, hlim, hst, hch', hwords⟩
          | ok v => exact hsame.elim
        | ok v =>
          cases s with
          | error e' => exact hsame.elim
          | ok v' =>
            have hv : v = v' := hsame
            subst hv
            cases target with
            | error e => exact ⟨rfl, hmem, hip, htick, hlim, hst, hch', hwords⟩
            | ok address =>
              exact ⟨rfl, by simp only [hmem], rfl, htick, hlim, hst, hch', hwords.put _ _⟩
  | emit value next =>
    obtain ⟨hok, hch'⟩ := hR.write (ha value next rfl) hch
    simp only [act]
    cases hm : m.channel.write value with
    | mk r c =>
      cases hn : n.channel.write value with
      | mk s d =>
        rw [hm, hn] at hch'
        rw [hm] at hok
        simp only at hok hch'
        subst hok
        rcases hch' with ⟨hs, hcd⟩ | ⟨e, hs, href⟩
        · subst hs
          exact .inl ⟨rfl, hmem, rfl, htick, hlim, hst, hcd, hwords⟩
        · subst hs
          exact .inr ⟨e, rfl, rfl, href⟩
  | goto next => exact .inl ⟨rfl, hmem, rfl, htick, hlim, hst, hch, hwords⟩
  | stop => exact .inl ⟨rfl, hmem, hip, htick, hlim, rfl, hch, hwords⟩

/-- A failure is recorded on both sides, or on neither. -/
theorem Beside.fail (h : Beside R m n) {e e' : Fault} (hkind : e.kind = e'.kind) :
    Beside R (m.fail e) (n.fail e') := by
  have hw := Fault.writable_eq_of_kind hkind
  refine ⟨?_, ?_, ?_, ?_, ?_, ?_, ?_⟩
  · rw [fail_memory, fail_memory, h.memory]
  · rw [fail_ip, fail_ip, h.ip]
  · rw [fail_tick, fail_tick, h.tick]
  · rw [fail_tickLimit, fail_tickLimit, h.tickLimit]
  · rw [fail_status, fail_status, hw, h.status]
  · rw [fail_channel, fail_channel]
    exact h.channel
  · rw [fail_memory]
    exact h.words

/-- **A step keeps machines side by side**, unless the second channel refuses a value. -/
theorem step_beside (hR : Channel.Lockstep R Refused) (h : Beside R m n) :
    SameOutcome m.step.1 n.step.1 ∧ Beside R m.step.2 n.step.2 ∨
      ∃ e, n.step.1 = .error e ∧ Refused m.step.2.channel e := by
  by_cases hs : m.status ≠ .running
  · rw [step_of_stopped hs, step_of_stopped (by rw [← h.status]; exact hs)]
    exact .inl ⟨h.status, h⟩
  have hs : m.status = .running := Decidable.not_not.1 hs
  have hact := act_beside hR h fun _ _ => next_emit h.words
  obtain ⟨m₁, hm, hm'⟩ | ⟨e, m₁, hm, hm'⟩ := step_cases hs <;>
    obtain ⟨n₁, hn, hn'⟩ | ⟨e', n₁, hn, hn'⟩ := step_cases (h.status.symm.trans hs) <;>
    rw [← h.next] at hn <;> rw [hm, hn] at hact <;> rw [hm', hn']
  · -- both succeed
    rcases hact with ⟨-, hb⟩ | ⟨e, -, he, -⟩
    · refine .inl ⟨hb.status, hb.memory, hb.ip, ?_, hb.tickLimit, hb.status, hb.channel, hb.words⟩
      simp only [h.tick]
    · cases he
  · -- the second alone fails: its channel has refused a value
    rcases hact with ⟨hsame, -⟩ | ⟨e, -, he, href⟩
    · exact hsame.elim
    · exact .inr ⟨e', rfl, by cases he; exact href⟩
  · -- the first alone cannot fail
    rcases hact with ⟨hsame, -⟩ | ⟨e, he, -⟩
    · exact hsame.elim
    · cases he
  · -- both fail
    rcases hact with ⟨hsame, hb⟩ | ⟨e, he, -⟩
    · exact .inl ⟨hsame, hb.fail hsame⟩
    · cases he

/-- Where no value is refused, machines stay side by side throughout. -/
theorem after_beside (hR : Channel.Lockstep R fun _ _ => False) (h : Beside R m n) (k : Nat) :
    Beside R (m.after k) (n.after k) := by
  induction k generalizing m n with
  | zero => exact h
  | succ k ih =>
    rcases step_beside hR h with ⟨-, hb⟩ | ⟨e, -, href⟩
    · exact ih hb
    · exact href.elim

/-- **Runs of machines side by side** have the same length and end side by side, unless the second
channel refuses a value, which ends the second run. -/
theorem Runs.beside (hR : Channel.Lockstep R Refused) {k : Nat} {r : Except Fault Status × Machine}
    (hruns : Runs k m r) (h : Beside R m n) :
    (∃ s, Runs k n s ∧ SameOutcome r.1 s.1 ∧ Beside R r.2 s.2) ∨
      ∃ j s e, Runs j n s ∧ s.1 = .error e ∧ Refused r.2.channel e := by
  induction hruns generalizing n with
  | last hm hr =>
    subst hm
    rcases step_beside hR h with ⟨hsame, hb⟩ | ⟨e, he, href⟩
    · refine .inl ⟨n.step, .last rfl ?_, hsame, hb⟩
      intro hrun
      exact hr (hsame.eq_ok_iff.2 hrun)
    · exact .inr ⟨1, n.step, e, .last rfl (by rw [he]; simp), he, href⟩
  | @more k m m' r hm hruns ih =>
    rcases step_beside hR h with ⟨hsame, hb⟩ | ⟨e, he, href⟩
    · rw [hm] at hsame hb
      have hn : n.step = (.ok .running, n.step.2) := by rw [← hsame.eq_ok_iff.1 rfl]
      rcases ih hb with ⟨s, hs, hsame', hb'⟩ | ⟨j, s, e, hs, he, href⟩
      · exact .inl ⟨s, .more hn hs, hsame', hb'⟩
      · exact .inr ⟨j + 1, s, e, .more hn hs, he, href⟩
    · -- what the first channel has taken since then does not undo the refusal
      have hlast : Refused r.2.channel e := by
        rw [hm] at href
        rw [hruns.snd_eq_after]
        exact after_channel (P := fun c => Refused c e) (fun _ h => hR.refused_read h)
          (fun _ v h => hR.refused_write v h) href _
      exact .inr ⟨1, n.step, e, .last rfl (by rw [he]; simp), he, hlast⟩

end Machine

end Intcode
