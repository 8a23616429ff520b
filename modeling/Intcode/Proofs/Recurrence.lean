import Intcode.Proofs.Causality
import Intcode.Proofs.TickLimit

/-!
# Machines that come back to where they were

Memory, pointer and the values that wait decide what a machine on a queue does. The
count of instructions has no say in it before the limit is reached, and neither have
the values written so far. So a machine that comes back to the same memory and the same
pointer, and has read nothing in between, goes round for ever, and only the limit stops
it.

* `Channel.sameInput_lockstep`: what was written to a queue does not show in what is
  read from it.
* `sameInput_of_quiet`: steps that read nothing leave what waits alone.
* `after_recurrent`: a machine that came back once is, after any number of steps, where
  it was in the first round.
* `run_of_limit`: a machine that is still running when the limit is reached fails there.
* `run_recurrent`: whatever the limit, it is the limit that ends the run.
* `run_recurrent_unwritten`: a limit that ends the run, but cannot be written.
-/

namespace Intcode

/-- Queues on which the same values wait, whatever was written to them. -/
def Channel.SameInput (c d : Channel) : Prop :=
  ∃ p q, c = .queue p ∧ d = .queue q ∧ p.pending = q.pending

theorem Channel.SameInput.symm {c d : Channel} (h : SameInput c d) : SameInput d c := by
  obtain ⟨p, q, hc, hd, hpq⟩ := h
  exact ⟨q, p, hd, hc, hpq.symm⟩

theorem Channel.SameInput.trans {c d e : Channel} (h : SameInput c d) (h' : SameInput d e) :
    SameInput c e := by
  obtain ⟨p, q, hc, rfl, hpq⟩ := h
  obtain ⟨q', r, hd, he, hqr⟩ := h'
  cases hd
  exact ⟨p, r, hc, he, hpq.trans hqr⟩

/-- **What was written to a queue does not show in what is read from it.** -/
theorem Channel.sameInput_lockstep : Channel.Lockstep SameInput fun _ _ => False where
  read := by
    rintro c d ⟨⟨pending, outs⟩, ⟨_, outs'⟩, rfl, rfl, rfl⟩
    cases pending with
    | nil => exact ⟨rfl, _, _, rfl, rfl, rfl⟩
    | cons v rest => exact ⟨rfl, _, _, rfl, rfl, rfl⟩
  write := by
    rintro c d v - ⟨p, q, rfl, rfl, hpq⟩
    exact ⟨rfl, .inl ⟨rfl, _, _, rfl, rfl, hpq⟩⟩
  refused_read := False.elim
  refused_write := fun _ => False.elim

namespace Machine

variable {m n : Machine} {i j : Nat} {L : Int}

/-- Steps take as many values off the queue as their calls deliver. -/
theorem after_pending {q : Queue} (hq : m.channel = .queue q) (k : Nat) :
    ∃ q', (m.after k).channel = .queue q' ∧
      q'.pending.length + (m.exchanges k).countP Exchange.receives = q.pending.length := by
  induction k generalizing m q with
  | zero => exact ⟨q, hq, rfl⟩
  | succ k ih =>
    obtain ⟨q₁, hq₁, hfirst⟩ := step_pending hq
    obtain ⟨q', hq', hrest⟩ := ih hq₁
    refine ⟨q', hq', ?_⟩
    rw [exchanges, List.countP_append]
    omega

/-- **Steps that read nothing leave what waits alone.** -/
theorem sameInput_of_quiet {q : Queue} (hq : m.channel = .queue q) {k : Nat}
    (hquiet : ∀ x ∈ m.exchanges k, x.receives = false) :
    Channel.SameInput m.channel (m.after k).channel := by
  obtain ⟨q', hq', hlen⟩ := after_pending hq k
  obtain ⟨q'', hq'', hsuffix⟩ := after_suffix hq k
  rw [hq'] at hq''
  cases hq''
  have hnone : (m.exchanges k).countP Exchange.receives = 0 := by
    rw [List.countP_eq_zero]
    intro x hx
    rw [hquiet x hx]
    simp
  have heq : q'.pending = q.pending := hsuffix.eq_of_length (by omega)
  exact ⟨q, q', hq, hq', heq.symm⟩

/-- What a machine goes round in: after `i` steps and after `j` steps it has the same memory and the
same pointer, the same values wait, and it is running. All steps were counted. -/
structure Recurs (m : Machine) (i j : Nat) : Prop where
  lt : i < j
  running : (m.after j).status = .running
  counted : (m.after j).tick = m.tick + j
  memory : (m.after i).memory = (m.after j).memory
  ip : (m.after i).ip = (m.after j).ip
  input : Channel.SameInput (m.after i).channel (m.after j).channel

/-- A machine in the state in which the round ends is in the state in which it began. -/
theorem Recurs.back (h : m.Recurs i j) {d : Nat}
    (hb : Beside Channel.SameInput n ((m.after j).later d L)) :
    Beside Channel.SameInput n ((m.after i).later (j - i + d) L) := by
  have hlt := h.lt
  have hj := h.counted
  obtain ⟨hstep, hi⟩ := after_running h.running h.counted i hlt
  have hrunning : (m.after i).status = .running := (step_running hstep).1
  have htick : n.tick = (m.after j).tick + d := hb.tick
  refine ⟨hb.memory.trans h.memory.symm, hb.ip.trans h.ip.symm, ?_, hb.tickLimit, ?_,
    hb.channel.trans h.input.symm, hb.words⟩
  · show n.tick = (m.after i).tick + (j - i + d)
    omega
  · show n.status = (m.after i).status
    rw [hrunning, hb.status]
    exact h.running

/-- **A machine that came back once is where it was in the first round**, after any number of steps that
the limit allows. -/
theorem after_recurrent (h : m.Recurs i j) (hn : Beside Channel.SameInput n (m.withLimit L)) (k : Nat)
    (hk : m.tick + k ≤ max (m.tick : Int) L) :
    ∃ r d, r < j ∧ r + d = k ∧ Beside Channel.SameInput (n.after k) ((m.after r).later d L) := by
  have hlt := h.lt
  induction k with
  | zero => exact ⟨0, 0, by omega, rfl, hn⟩
  | succ k ih =>
    push_cast at hk
    obtain ⟨r, d, hr, hrd, hb⟩ := ih (by omega)
    obtain ⟨hround, htick⟩ := after_running h.running h.counted r hr
    obtain ⟨-, -, hbelow, -, -⟩ := step_running hround
    -- one step further in both, for neither has reached its limit
    have hstep : ((m.after r).later d L).step = (.ok .running, (m.after (r + 1)).later d L) := by
      rw [step_later hbelow (by omega), hround]
    have hnext : Beside Channel.SameInput (n.after (k + 1)) ((m.after (r + 1)).later d L) := by
      rcases step_beside Channel.sameInput_lockstep hb with ⟨-, hb'⟩ | ⟨e, -, hrefused⟩
      · rw [hstep] at hb'
        rw [after_succ]
        exact hb'
      · exact hrefused.elim
    by_cases hend : r + 1 = j
    · -- the round is over, and another one begins
      rw [hend] at hnext
      exact ⟨i, j - i + d, hlt, by omega, h.back hnext⟩
    · exact ⟨r + 1, d, by omega, by omega, hnext⟩

/-- **A machine that is running when the limit is reached fails there.** -/
theorem run_of_limit {k : Nat} (hs : (m.after k).status = .running)
    (htick : (m.after k).tick = m.tick + k) (hl : (m.after k).tickLimit ≤ (m.after k).tick) :
    m.run = (.error (.tickLimit (m.after k).tickLimit (m.after k).ip),
      (m.after k).fail (.tickLimit (m.after k).tickLimit (m.after k).ip)) := by
  have hlast := step_of_limit hs hl
  have hends : (m.after k).step.1 ≠ .ok .running := by
    rw [hlast]
    simp
  rw [(runs_of_running hs htick hends).run_eq, hlast]

/-- **A machine that comes back to where it was never halts.** Take a machine fresh from its image on a
queue, under some limit. It has executed `j` instructions and is running, with the memory and the
pointer that it had after `i` of them, and has received no value in between. Then under every limit the
run of this image on this input is ended by the limit, after as many instructions as it allows. The
fault is recorded, unless the limit or the pointer cannot be written; and the pointer can, if the size
of the image can. -/
theorem run_recurrent (image inputs : List Int) :
    let m : Int → Bool → Machine := boot image (.queue (.ofInputs inputs))
    ∀ (L₀ : Int) (lenient₀ : Bool) (i j : Nat), i < j →
      ((m L₀ lenient₀).after j).status = .running → ((m L₀ lenient₀).after j).tick = j →
      ((m L₀ lenient₀).after i).memory = ((m L₀ lenient₀).after j).memory →
      ((m L₀ lenient₀).after i).ip = ((m L₀ lenient₀).after j).ip →
      (∀ x ∈ ((m L₀ lenient₀).after i).exchanges (j - i), x.receives = false) →
      ∀ (L : Int) (lenient : Bool), let r := (m L lenient).run
        (r.2.tick : Int) = max 0 L ∧ r.1 = .error (.tickLimit L r.2.ip) ∧
          CutOff L ((m L lenient).after L.toNat) r ∧
          (Numeral.writable image.length = true → Numeral.writable r.2.ip = true) := by
  intro m L₀ lenient₀ i j hij hj hcounted hmemory hip hquiet L lenient r
  obtain ⟨q, hq⟩ : ∃ q, ((m L₀ lenient₀).after i).channel = .queue q := after_queue ⟨_, rfl⟩ i
  have hinput : Channel.SameInput ((m L₀ lenient₀).after i).channel
      ((m L₀ lenient₀).after j).channel := by
    have hsame := sameInput_of_quiet hq hquiet
    rwa [← after_add, Nat.add_sub_cancel' (Nat.le_of_lt hij)] at hsame
  have hzero : (m L₀ lenient₀).tick = 0 := rfl
  have hrecurs : (m L₀ lenient₀).Recurs i j :=
    ⟨hij, hj, by rw [hzero, Nat.zero_add]; exact hcounted, hmemory, hip, hinput⟩
  have hboot : Beside Channel.SameInput (m L lenient) ((m L₀ lenient₀).withLimit L) :=
    ⟨rfl, rfl, rfl, rfl, rfl, ⟨_, _, rfl, rfl, rfl⟩, Memory.wordy_ofImage image⟩
  -- the machine where the limit is reached, and the point of the first round where it is then
  have hreach : (m L₀ lenient₀).tick + (L.toNat : Int) ≤ max ((m L₀ lenient₀).tick : Int) L := by
    rw [hzero]
    omega
  obtain ⟨k, d, hk, hkd, hb⟩ := after_recurrent hrecurs hboot L.toNat hreach
  obtain ⟨hstep, hround⟩ := after_running hj hrecurs.counted k hk
  have hstatus : ((m L lenient).after L.toNat).status = .running :=
    hb.status.trans (step_running hstep).1
  have htick : ((m L lenient).after L.toNat).tick = (m L lenient).tick + L.toNat := by
    have hcount : ((m L lenient).after L.toNat).tick = ((m L₀ lenient₀).after k).tick + d := hb.tick
    have hstart : (m L lenient).tick = 0 := rfl
    omega
  have hlimit : ((m L lenient).after L.toNat).tickLimit = L := hb.tickLimit
  have hcount : (((m L lenient).after L.toNat).tick : Int) = max 0 L := by
    have hstart : (m L lenient).tick = 0 := rfl
    omega
  have hend : r = _ := run_of_limit hstatus htick (by omega)
  rw [hlimit] at hend
  rw [hend]
  refine ⟨?_, ?_, ?_, ?_⟩
  · rw [fail_tick]
    exact hcount
  · rw [fail_ip]
  · have hself : ∀ {m : Machine}, m.tickLimit = L → m.withLimit L = m := by
      rintro m rfl
      rfl
    have hcut := cutOff_of_fail L ((m L lenient).after L.toNat)
    rwa [hself hlimit] at hcut
  · intro hsize
    rw [fail_ip]
    exact writable_ip image _ L lenient hsize L.toNat

/-- A program that writes sevens for ever, with a value waiting that it never asks for: a limit of a
million ends its run as one of nine does. -/
theorem run_recurrent_sevens :
    let m : Int → Bool → Machine := boot [104, 7, 1105, 1, 0] (.queue (.ofInputs [5]))
    ((m 9 false).after 2).status = .running ∧ ((m 9 false).after 2).ip = 0 ∧
      ∃ e, (m 1000000 true).run.1 = .error e ∧ e.kind = .tickLimit := by
  intro m
  have hround : ((m 9 false).after 2).status = .running ∧ ((m 9 false).after 2).tick = 2 ∧
      ((m 9 false).after 2).ip = 0 ∧ (m 9 false).memory = ((m 9 false).after 2).memory ∧
      ∀ x ∈ (m 9 false).exchanges 2, x.receives = false := by
    subst m
    decide +kernel
  obtain ⟨hrunning, hcounted, hip, hmemory, hquiet⟩ := hround
  obtain ⟨-, hlimit, -, hpointer⟩ := run_recurrent [104, 7, 1105, 1, 0] [5] 9 false 0 2 (by decide)
    hrunning hcounted hmemory hip.symm hquiet 1000000 true
  have hip' := hpointer (by decide)
  refine ⟨hrunning, hip, _, hlimit, Fault.kind_of_writable ?_⟩
  show Numeral.allWritable [1000000, _] = true
  rw [Numeral.allWritable, List.all_cons, List.all_cons, hip']
  decide

/-- **A limit that is too long to be written.** A program that jumps to itself for ever is where it was
after one step, but a limit far below zero ends its run without a fault of the limit. -/
theorem run_recurrent_unwritten :
    let limit : Int := -(Nat.pow 10 Numeral.maxDigits : Nat)
    let m : Int → Machine := fun L => boot [1105, 1, 0] (.queue (.ofInputs [])) L false
    ((m 9).after 1).status = .running ∧ ((m 9).after 1).tick = 1 ∧
      (m 9).memory = ((m 9).after 1).memory ∧ (m 9).ip = ((m 9).after 1).ip ∧
      (m 9).exchanges 1 = [] ∧
      (∃ e, (m limit).run.1 = .error e ∧ e.kind ≠ .tickLimit) ∧ (m limit).run.2.status = .running := by
  intro limit
  have hlong : Numeral.writable limit = false := (Numeral.writable_neg _).trans Numeral.writable_pow
  have hneg : limit ≤ 0 := Int.neg_nonpos_of_nonneg (Int.natCast_nonneg _)
  clear_value limit
  intro m
  obtain ⟨-, hrun, hkind⟩ :=
    run_of_unwritable_limit [1105, 1, 0] (.queue (.ofInputs [])) false hneg hlong
  have hend : (m limit).run = (.error (.tickLimit limit 0), m limit) := hrun
  refine ⟨by rfl, by rfl, by rfl, by rfl, by rfl, ⟨_, by rw [hend], by rw [hkind]; simp⟩, ?_⟩
  rw [hend]
  rfl

end Machine

end Intcode
