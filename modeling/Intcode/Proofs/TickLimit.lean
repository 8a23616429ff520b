import Mathlib.Order.Lattice
import Intcode.Proofs.WrittenFaults

/-!
# The limit as a threshold

The limit on the number of instructions says when a run is cut off and nothing
else: two machines that differ in their limits alone take the same steps for as
long as both limits allow.

* `step_later`: below the limit neither it nor the count shows in a step.
* `Runs.withLimit`: a limit that leaves room for the whole run does not show in it.
* `Runs.cut`: a smaller limit ends the run where it is reached, and there the
  machine is that of the longer run.
* `run_threshold`: all of it, for a machine fresh from its image.
* `run_unwritten_limit`: a limit that is too long to be written ends a run, but not as a
  fault of the machine.
-/

namespace Intcode.Machine

/-- The machine with another limit. -/
def withLimit (m : Machine) (L : Int) : Machine := { m with tickLimit := L }

/-- The machine under another limit, and with `d` more instructions behind it. -/
def later (d : Nat) (L : Int) (m : Machine) : Machine :=
  { m with tick := m.tick + d, tickLimit := L }

/-- No action looks at the limit or at the count. -/
theorem act_later (m : Machine) (d : Nat) (L : Int) (a : Action) :
    (m.later d L).act a = ((m.act a).1, (m.act a).2.later d L) := by
  have hact : (m.later d L).act a = _ := act_bookkeeping m (m.tick + d) L m.lenient a
  rw [hact, ← act_tick m a, ← act_lenient m a]
  rfl

/-- Below both limits a machine takes the same step, whatever its count is. -/
theorem step_later {m : Machine} {d : Nat} {L : Int} (hm : m.tick < m.tickLimit)
    (hl : m.tick + d < L) : (m.later d L).step = (m.step.1, m.step.2.later d L) := by
  have hl' : ((m.later d L).tick : Int) < (m.later d L).tickLimit := by
    simp only [later]
    push_cast
    exact hl
  have hnext : (m.later d L).next = m.next := by
    rw [next_of_lt hm, next_of_lt hl']
    rfl
  have haside : Aside (later d L) := by
    refine ⟨fun _ => rfl, ?_, fun _ _ => rfl⟩
    intro m
    simp only [later, Nat.add_right_comm]
  refine step_commutes haside ?_
  rw [hnext]
  exact act_later m d L m.next

/-- Below both limits a machine takes the same step under either. -/
theorem step_withLimit {m : Machine} {L : Int} (hm : m.tick < m.tickLimit) (hl : m.tick < L) :
    (m.withLimit L).step = (m.step.1, m.step.2.withLimit L) :=
  step_later (d := 0) hm (by omega)

/-- At the limit a step fails, and leaves everything but the status where it was. -/
theorem step_of_limit {m : Machine} (hs : m.status = .running) (h : m.tickLimit ≤ m.tick) :
    m.step = (.error (.tickLimit m.tickLimit m.ip), m.fail (.tickLimit m.tickLimit m.ip)) :=
  step_of_error hs (by rw [next_of_limit h]; rfl)

/-- A run that does not end at the limit is within it. -/
theorem Runs.within {n : Nat} {m : Machine} {r : Except Fault Status × Machine} (h : Runs n m r)
    (hs : m.status = .running) (hr : ∀ ip, r.1 ≠ .error (.tickLimit m.tickLimit ip)) :
    m.tick + n ≤ m.tickLimit := by
  induction h with
  | last h _ =>
    by_contra hlt
    rw [step_of_limit hs (by omega)] at h
    subst h
    exact hr _ rfl
  | more h _ ih =>
    obtain ⟨-, hs', -, htick, hlim, -⟩ := step_running h
    rw [← hlim] at hr
    have := ih hs' hr
    rw [htick, hlim] at this
    push_cast at this ⊢
    omega

/-- **A limit that leaves room for the whole run does not show in it.** -/
theorem Runs.withLimit {n : Nat} {m : Machine} {r : Except Fault Status × Machine} {L : Int}
    (h : Runs n m r) (hs : m.status = .running) (hm : m.tick + n ≤ m.tickLimit)
    (hl : m.tick + n ≤ L) : Runs n (m.withLimit L) (r.1, r.2.withLimit L) := by
  induction h with
  | last h hr =>
    subst h
    exact .last (step_withLimit (by omega) (by omega)) hr
  | @more n m m' r h _ ih =>
    obtain ⟨-, hs', -, htick, hlim, -⟩ := step_running h
    push_cast at hm hl
    have hstep : (m.withLimit L).step = _ := step_withLimit (by omega) (by omega)
    rw [h] at hstep
    refine .more hstep (ih hs' ?_ ?_)
    · rw [htick, hlim]; push_cast; omega
    · rw [htick]; push_cast; omega

/-- **A smaller limit ends the run where it is reached**: with the machine as the longer run had it
after as many steps. -/
theorem Runs.cut {n : Nat} {m : Machine} {r : Except Fault Status × Machine} {L : Int}
    (h : Runs n m r) (hs : m.status = .running) (hl : L < m.tick + n) :
    ∃ j, j = (L - m.tick).toNat ∧ (m.after j).tick = m.tick + j ∧
      Runs (j + 1) (m.withLimit L) (.error (.tickLimit L (m.after j).ip),
        ((m.after j).withLimit L).fail (.tickLimit L (m.after j).ip)) := by
  -- a machine that is at its limit already fails at once
  have atLimit : ∀ {m : Machine}, m.status = .running → L ≤ m.tick →
      ∃ j, j = (L - m.tick).toNat ∧ (m.after j).tick = m.tick + j ∧
        Runs (j + 1) (m.withLimit L) (.error (.tickLimit L (m.after j).ip),
          ((m.after j).withLimit L).fail (.tickLimit L (m.after j).ip)) := by
    intro m hs hl
    refine ⟨0, by omega, rfl, ?_⟩
    exact .last (step_of_limit (m := m.withLimit L) hs hl) (by simp)
  induction h with
  | last h _ => exact atLimit hs (by omega)
  | @more n m m' r h _ ih =>
    by_cases hm : L ≤ m.tick
    · exact atLimit hs hm
    obtain ⟨-, hs', hlt, htick, hlim, -⟩ := step_running h
    push_cast at hl
    obtain ⟨j, hj, hjt, hruns⟩ := ih hs' (by rw [htick]; push_cast; omega)
    have hstep := step_withLimit (L := L) hlt (by omega)
    have hafter : m.after (j + 1) = m'.after j := by rw [after, h]
    rw [h] at hstep
    refine ⟨j + 1, ?_, ?_, ?_⟩
    · rw [hj, htick]; push_cast; omega
    · rw [hafter, hjt, htick]; omega
    · rw [hafter]; exact .more hstep hruns

/-- A run from the start is cut off by every limit below its length, after as many instructions as
the limit allows. -/
theorem Runs.run_withLimit_of_lt {n : Nat} {m : Machine} {r : Except Fault Status × Machine} {L : Int}
    (h : Runs n m r) (hs : m.status = .running) (h0 : m.tick = 0) (hl : L < n) :
    let stopped := m.after (max 0 L).toNat
    ((m.withLimit L).run.2.tick : Int) = max 0 L ∧
      (m.withLimit L).run = (.error (.tickLimit L stopped.ip),
        (stopped.withLimit L).fail (.tickLimit L stopped.ip)) := by
  intro stopped
  obtain ⟨j, hj, hjt, hcut⟩ := h.cut (L := L) hs (by rw [h0]; omega)
  rw [h0] at hj hjt
  have hj' : j = (max 0 L).toNat := by omega
  have hrun := hcut.run_eq
  rw [hj'] at hrun
  refine ⟨?_, hrun⟩
  rw [hrun, fail_tick]
  show ((m.after (max 0 L).toNat).tick : Int) = _
  rw [← hj', hjt]
  omega

/-- The limit `L` has ended a run where the machine is `m`. If the limit and the pointer can be
written, then the fault is recorded as one of the limit; else none is, and the machine is left
running. -/
def CutOff (L : Int) (m : Machine) (r : Except Fault Status × Machine) : Prop :=
  ∃ e, if Numeral.allWritable [L, m.ip] then
      e.kind = .tickLimit ∧
        r = (.error e, { m with tickLimit := L, status := .errored, error := some e })
    else e.kind = .unwritten ∧ r = (.error e, { m with tickLimit := L })

theorem cutOff_of_fail (L : Int) (m : Machine) :
    CutOff L m (.error (.tickLimit L m.ip), (m.withLimit L).fail (.tickLimit L m.ip)) := by
  refine ⟨.tickLimit L m.ip, ?_⟩
  split
  · next hw =>
    have hwritable : (Fault.tickLimit L m.ip).writable = true := hw
    exact ⟨Fault.kind_of_writable hwritable, by rw [fail_of_writable hwritable]; rfl⟩
  · next hw =>
    have hwritable : (Fault.tickLimit L m.ip).writable = false := Bool.not_eq_true _ ▸ hw
    exact ⟨Fault.kind_eq_unwritten_iff.2 hwritable, by rw [fail_of_unwritable hwritable]; rfl⟩

theorem CutOff.error {L : Int} {m : Machine} {r : Except Fault Status × Machine} (h : CutOff L m r) :
    ∃ e, r.1 = .error e ∧
      e.kind = if Numeral.allWritable [L, r.2.ip] then .tickLimit else .unwritten := by
  obtain ⟨e, he⟩ := h
  split at he <;> obtain ⟨hkind, rfl⟩ := he
  · next hw => exact ⟨e, rfl, by rw [hkind, if_pos hw]⟩
  · next hw => exact ⟨e, rfl, by rw [hkind, if_neg hw]⟩

/-- **The limit is an exact threshold, and a run always ends.** A machine fresh from its image takes at
most one step more than the limit allows, and halts or fails; it is errored then, unless the limit or
the pointer cannot be written. If it halts after `t` instructions, so it does under every limit from
`t` on, and under a smaller one it is cut off as it was then. If it fails by itself after `t`
instructions, so it does under every greater limit, and under any other it is cut off. The pointer can
always be written if the size of the image can. -/
theorem run_threshold (image inputs : List Int) (lenient : Bool) (L : Int) :
    let m : Int → Machine := fun L => boot image (.queue (.ofInputs inputs)) L lenient
    let r := (m L).run
    (∃ n : Nat, n ≤ max 0 L + 1 ∧ Runs n (m L) r ∧
      (r.1 = .ok .halted ∧ r.2.status = .halted ∨ ∃ e, r.1 = .error e ∧
        (r.2.status = .errored ∨
          Numeral.allWritable [L, r.2.ip] = false ∧ e.kind = .unwritten ∧ r.2.status = .running))) ∧
    (r.1 = .ok .halted →
      1 ≤ r.2.tick ∧ r.2.tick ≤ L ∧
      (∀ L' : Int, r.2.tick ≤ L' →
        (m L').run = (.ok .halted, { r.2 with tickLimit := L' })) ∧
      ∀ L' : Int, L' < r.2.tick → ((m L').run.2.tick : Int) = max 0 L' ∧
        CutOff L' ((m L).after (max 0 L').toNat) (m L').run) ∧
    (∀ e, r.1 = .error e → e.family ≠ .tickLimit →
      r.2.tick < L ∧
      (∀ L' : Int, r.2.tick < L' →
        (m L').run = (.error e, { r.2 with tickLimit := L' })) ∧
      ∀ L' : Int, L' ≤ r.2.tick → ((m L').run.2.tick : Int) = max 0 L' ∧
        ∃ e', (m L').run.1 = .error e' ∧
          e'.kind = if Numeral.allWritable [L', (m L').run.2.ip] then .tickLimit else .unwritten) ∧
    (Numeral.writable image.length = true → ∀ L', Numeral.writable (m L').run.2.ip = true) := by
  intro m r
  obtain ⟨n, hn, hruns⟩ := exists_runs (m L)
  have htick0 : (m L).tick = 0 := rfl
  have hbudget : (m L).budget = (L - (0 : Nat)).toNat + 1 := rfl
  have hends := hruns.ends rfl
  rw [htick0, Nat.zero_add] at hends
  have hwithin : (∀ ip, r.1 ≠ .error (.tickLimit L ip)) → (n : Int) ≤ L := by
    intro hr
    have hw : ((m L).tick : Int) + n ≤ L := hruns.within rfl hr
    rw [htick0] at hw
    omega
  -- a run that does not end at the limit is the same under every limit with room for it
  have same : (∀ ip, r.1 ≠ .error (.tickLimit L ip)) → ∀ L' : Int, n ≤ L' →
      (m L').run = (r.1, { r.2 with tickLimit := L' }) := by
    intro hr L' hl
    refine (hruns.withLimit (L := L') rfl (hruns.within rfl hr) ?_).run_eq
    rw [htick0]; omega
  -- and it is cut off by every smaller limit
  have cutOff : ∀ L' : Int, L' < n → ((m L').run.2.tick : Int) = max 0 L' ∧
      CutOff L' ((m L).after (max 0 L').toNat) (m L').run := by
    intro L' hl
    obtain ⟨htick, hrun⟩ := hruns.run_withLimit_of_lt (L := L') rfl rfl hl
    have hrun' : (m L').run = _ := hrun
    refine ⟨htick, ?_⟩
    rw [hrun']
    exact cutOff_of_fail L' _
  refine ⟨⟨n, by omega, hruns, ?_⟩, ?_, ?_, ?_⟩
  · rcases hends with ⟨h1, h2, -⟩ | ⟨e, h1, h2, -⟩
    · exact .inl ⟨h1, h2⟩
    · refine .inr ⟨e, h1, ?_⟩
      cases hw : e.writable with
      | true =>
        rw [hw] at h2
        exact .inl h2
      | false =>
        rw [hw] at h2
        exact .inr ⟨(writable_of_run_error image inputs L lenient h1).resolve_left (by simp [hw]),
          Fault.kind_eq_unwritten_iff.2 hw, h2⟩
  · intro hh
    have hnot : ∀ ip, r.1 ≠ .error (.tickLimit L ip) := by intro ip; rw [hh]; simp
    have htick : r.2.tick = n := by
      rcases hends with ⟨-, -, h⟩ | ⟨e, h, -⟩
      · exact h
      · rw [hh] at h; cases h
    have hpos : 1 ≤ n := by cases hruns <;> omega
    rw [htick]
    refine ⟨hpos, hwithin hnot, ?_, cutOff⟩
    intro L' hl
    rw [same hnot L' hl, hh]
  · intro e he hlimit
    have hnot : ∀ ip, r.1 ≠ .error (.tickLimit L ip) := by
      rintro ip hip
      cases he.symm.trans hip
      exact hlimit rfl
    have htick : r.2.tick + 1 = n := by
      rcases hends with ⟨h, -⟩ | ⟨e', -, -, -, h⟩
      · rw [he] at h; cases h
      · exact h
    have hw := hwithin hnot
    refine ⟨by omega, ?_, ?_⟩
    · intro L' hl
      rw [same hnot L' (by omega), he]
    · intro L' hl
      obtain ⟨htick', hcut⟩ := cutOff L' (by omega)
      exact ⟨htick', hcut.error⟩
  · intro hsize L'
    obtain ⟨k, -, hruns'⟩ := exists_runs (m L')
    rw [hruns'.snd_eq_after]
    exact writable_ip image _ L' lenient hsize k

/-- Two instructions need a limit of two. -/
theorem run_threshold_two :
    let m : Int → Machine := fun L => boot [1101, 1, 1, 0, 99] (.queue (.ofInputs [])) L false
    (m 9).run.1 = .ok .halted ∧ (m 2).run.1 = .ok .halted ∧
      CutOff 1 ((m 9).after 1) (m 1).run := by
  intro m
  have hhalt : (m 9).run.1 = .ok .halted := by rfl
  have htick : (m 9).run.2.tick = 2 := by rfl
  obtain ⟨-, -, hsame, hcut⟩ :=
    (run_threshold [1101, 1, 1, 0, 99] [] false 9).2.1 hhalt
  obtain ⟨-, hrun⟩ := hcut 1 (by rw [htick]; decide)
  exact ⟨hhalt, by rw [hsame 2 (by rw [htick]; decide)], hrun⟩

/-- **A limit that is too long to be written.** A program of one instruction halts under a limit of
one, and is cut off by a limit far below zero. What is raised is no fault of the limit then, and the
machine is left running, with no cause recorded. -/
theorem run_unwritten_limit :
    let limit : Int := -(Nat.pow 10 Numeral.maxDigits : Nat)
    let m : Int → Machine := fun L => boot [99] (.queue (.ofInputs [])) L false
    (m 1).run.1 = .ok .halted ∧ limit < 1 ∧
      (∃ e, (m limit).run.1 = .error e ∧ e.kind ≠ .tickLimit) ∧
      (m limit).run.2.status = .running ∧ (m limit).run.2.error = none := by
  intro limit
  have hlong : Numeral.writable limit = false := (Numeral.writable_neg _).trans Numeral.writable_pow
  have hneg : limit ≤ 0 := Int.neg_nonpos_of_nonneg (Int.natCast_nonneg _)
  clear_value limit
  intro m
  obtain ⟨-, hrun, hkind⟩ := run_of_unwritable_limit [99] (.queue (.ofInputs [])) false hneg hlong
  have hend : (m limit).run = (.error (.tickLimit limit 0), m limit) := hrun
  refine ⟨by rfl, by omega, ⟨_, by rw [hend], by rw [hkind]; simp⟩, ?_, ?_⟩
  · rw [hend]
    rfl
  · rw [hend]
    rfl

end Intcode.Machine
