import Mathlib.Data.List.TakeDrop
import Intcode.Proofs.Lockstep
import Intcode.Proofs.WrittenFaults

/-!
# Rehearsed runs

A run on a fixture against the run on a queue with the same input. The two go in
lockstep until the machine writes a value that the fixture does not expect; the
run on the queue then goes on by itself, and what it has written is no beginning of
what is expected, then or later. The fixture says so, unless the value that it expects is
too long to be written.

* `Rehearsal.lockstep`: a fixture keeps up with a queue, or refuses.
* `run_fixture`: a fixture refuses exactly the runs that it should, shows all
  others as they are, and is used up exactly by the run it describes.
* `run_fixture_unwritten`: a fixture that cannot say what it expects.
-/

namespace Intcode

/-- A fixture for the input `xs` and the output `es` is where a queue is that held `xs`. -/
structure Rehearses (xs es : List Int) (q : Queue) (f : Fixture) : Prop where
  inputs : f.inputs = xs.toArray
  expected : f.expected = es.toArray
  readCount : f.readCount ≤ xs.length
  writeCount : f.writeCount ≤ es.length
  pending : q.pending = xs.drop f.readCount
  outputs : q.outputs.toList = es.take f.writeCount

/-- The channels of a run and of its rehearsal. -/
def Rehearsal (xs es : List Int) (c d : Channel) : Prop :=
  ∃ q f, c = .queue q ∧ d = .fixture f ∧ Rehearses xs es q f

/-- A fixture that expects `es` has refused what a queue collected. -/
def Strays (es : List Int) (c : Channel) (e : Fault) : Prop :=
  e.family = .fixture ∧ ∃ q, c = .queue q ∧ ¬ q.outputs.toList <+: es

/-- One value more keeps to a list exactly if it is the next one there. -/
theorem take_append_prefix_iff {es : List Int} {n : Nat} {v : Int} (hn : n ≤ es.length) :
    es.take n ++ [v] <+: es ↔ es[n]? = some v := by
  constructor
  · rintro ⟨t, ht⟩
    have hlen : (es.take n).length = n := by simp [hn]
    rw [← ht, List.append_assoc, List.getElem?_append_right (by omega), hlen]
    simp
  · intro h
    obtain ⟨hlt, rfl⟩ := List.getElem?_eq_some_iff.1 h
    rw [List.take_append_getElem hlt]
    exact List.take_prefix _ _

theorem Rehearses.read {xs es : List Int} {q : Queue} {f : Fixture} (h : Rehearses xs es q f) :
    SameOutcome q.read.1 f.read.1 ∧ Rehearses xs es q.read.2 f.read.2 := by
  obtain ⟨hin, hex, hr, hw, hp, ho⟩ := h
  unfold Queue.read Fixture.read
  rw [hp, hin, List.getElem?_toArray]
  by_cases hlt : f.readCount < xs.length
  · rw [List.drop_eq_getElem_cons hlt, List.getElem?_eq_getElem hlt]
    exact ⟨rfl, rfl, hex, hlt, hw, rfl, ho⟩
  · rw [List.drop_eq_nil_of_le (by omega), List.getElem?_eq_none (by omega)]
    exact ⟨rfl, hin, hex, hr, hw, hp, ho⟩

/-- The fixture accepts what is next in its list, and no other value keeps to the list. -/
theorem Rehearses.write {xs es : List Int} {q : Queue} {f : Fixture} (h : Rehearses xs es q f)
    (v : Int) :
    (f.write v).1 = .ok () ∧ Rehearses xs es (q.write v) (f.write v).2 ∨
      ∃ e, (f.write v).1 = .error e ∧ Strays es (.queue (q.write v)) e := by
  obtain ⟨hin, hex, hr, hw, hp, ho⟩ := h
  have hpush : (q.write v).outputs.toList = es.take f.writeCount ++ [v] := by
    simp [Queue.write, ho]
  -- whatever is not next in the list, the queue has strayed by it
  have hstray : ∀ e : Fault, e.family = .fixture → es[f.writeCount]? ≠ some v →
      Strays es (.queue (q.write v)) e := by
    intro e he hne
    refine ⟨he, _, rfl, ?_⟩
    rw [hpush, take_append_prefix_iff hw]
    exact hne
  unfold Fixture.write
  rw [hex, List.getElem?_toArray]
  cases hv : es[f.writeCount]? with
  | none => exact .inr ⟨_, rfl, hstray _ rfl (by rw [hv]; simp)⟩
  | some w =>
    by_cases hvw : v = w
    · subst hvw
      obtain ⟨hlt, hget⟩ := List.getElem?_eq_some_iff.1 hv
      simp only [if_true]
      refine .inl ⟨trivial, hin, rfl, hr, hlt, hp, ?_⟩
      rw [hpush, ← hget, List.take_append_getElem]
    · simp only [hvw, if_false]
      exact .inr ⟨_, rfl, hstray _ rfl (by rw [hv]; simpa using Ne.symm hvw)⟩

/-- **A fixture keeps up with a queue, or refuses.** -/
theorem Rehearsal.lockstep (xs es : List Int) : Channel.Lockstep (Rehearsal xs es) (Strays es) where
  read := by
    rintro c d ⟨q, f, rfl, rfl, h⟩
    exact ⟨h.read.1, _, _, rfl, rfl, h.read.2⟩
  write := by
    rintro c d v - ⟨q, f, rfl, rfl, h⟩
    rcases h.write v with ⟨hok, h'⟩ | hstray
    · exact ⟨rfl, .inl ⟨hok, _, _, rfl, rfl, h'⟩⟩
    · exact ⟨rfl, .inr hstray⟩
  refused_read := by
    rintro c e ⟨he, q, rfl, hq⟩
    refine ⟨he, _, rfl, ?_⟩
    rw [Queue.outputs_read]
    exact hq
  refused_write := by
    rintro c e v ⟨he, q, rfl, hq⟩
    refine ⟨he, _, rfl, ?_⟩
    intro hpre
    apply hq
    simp only [Queue.write, Array.toList_push] at hpre
    exact (List.prefix_append _ _).trans hpre

/-- A fixture is used up exactly when nothing waits on the queue, and what it collected is what is
expected. -/
theorem Rehearses.finish_iff {xs es : List Int} {q : Queue} {f : Fixture} (h : Rehearses xs es q f) :
    f.finish = .ok () ↔ q.pending = [] ∧ q.outputs.toList = es := by
  obtain ⟨hin, hex, hr, hw, hp, ho⟩ := h
  have hpend : q.pending = [] ↔ f.readCount = xs.length := by
    rw [hp, List.drop_eq_nil_iff]; omega
  have hout : q.outputs.toList = es ↔ f.writeCount = es.length := by
    rw [ho, List.take_eq_self_iff]; omega
  unfold Fixture.finish
  rw [hpend, hout, hin, hex, List.size_toArray, List.size_toArray]
  by_cases h1 : f.readCount = xs.length
  · by_cases h2 : f.writeCount = es.length
    · simp [h1, h2]
    · simp [h1, h2]
  · simp [h1]

namespace Machine

/-- A fixture stays a fixture, and expects what it did. -/
theorem after_fixture {m : Machine} {es : Array Int}
    (h : ∃ f, m.channel = .fixture f ∧ f.expected = es) (n : Nat) :
    ∃ f, (m.after n).channel = .fixture f ∧ f.expected = es := by
  refine after_channel (P := fun c => ∃ f, c = .fixture f ∧ f.expected = es) ?_ ?_ h n
  · rintro c ⟨f, rfl, hf⟩
    refine ⟨f.read.2, rfl, ?_⟩
    unfold Fixture.read
    split <;> exact hf
  · rintro c v ⟨f, rfl, hf⟩
    refine ⟨(f.write v).2, rfl, ?_⟩
    unfold Fixture.write
    split
    · split <;> exact hf
    · exact hf

/-- A run on a queue never complains about a fixture. -/
theorem run_queue_kind {m : Machine} (hq : ∃ q, m.channel = .queue q) {e : Fault}
    (h : m.run.1 = .error e) : e.kind ≠ .fixture := by
  intro hkind
  obtain ⟨hfamily, -⟩ := (Fault.kind_eq_iff (by simp)).1 hkind
  rcases run_queue_error hq h with hk | hk | hk <;> rw [hfamily] at hk <;> cases hk

/-- A run that a fixture ends says so, unless the fixture expects a value that cannot be written. -/
theorem run_refused (image : List Int) (f₀ f : Fixture) (L : Int) (lenient : Bool) {e : Fault}
    (h : (boot image (.fixture f₀) L lenient).run.1 = .error e) (hfamily : e.family = .fixture)
    (hf : (boot image (.fixture f₀) L lenient).run.2.channel = .fixture f) :
    e.writable = false ↔ (Channel.fixture f).AwaitsUnwritable := by
  obtain ⟨n, -, hruns⟩ := exists_runs (boot image (.fixture f₀) L lenient)
  obtain ⟨j, -, hj⟩ := hruns.eq_step
  rw [hj] at h hf
  obtain ⟨hchannel, v, next, hnext, hwrite⟩ := step_refused h hfamily
  rw [hf] at hchannel
  rw [← hchannel] at hwrite
  have hword := next_emit (after_sound (boot_sound image _ L lenient) j).1.cells hnext
  constructor
  · intro hw
    by_contra hc
    rw [Channel.writable_of_write_error hword hc hwrite] at hw
    cases hw
  · intro hc
    exact Channel.unwritable_of_write_error hc hwrite

/-- **Fixtures are exact.** Against the run on a queue with the same input, which writes `O` until it
halts or fails: the run on the fixture is refused exactly if `O` does not begin the expected output,
else it ends as that on the queue does, and it halts with the fixture used up exactly if the run on
the queue halts, wrote the expected output and read all input. A refusal is a fault of the fixture,
unless the value that it expects is too long to be written: then no fault is recorded, and the machine
is left running. -/
theorem run_fixture (image xs es : List Int) (L : Int) (lenient : Bool) :
    let Q : Except Fault Status × Machine := (boot image (.queue (.ofInputs xs)) L lenient).run
    let F : Except Fault Status × Machine := (boot image (.fixture (.ofLists xs es)) L lenient).run
    ∃ q f, Q.2.channel = .queue q ∧ F.2.channel = .fixture f ∧
      ((∃ e, F.1 = .error e ∧ e.kind = .fixture) ↔
        ¬ q.outputs.toList <+: es ∧ ¬ (Channel.fixture f).AwaitsUnwritable) ∧
      ((∀ v ∈ es, Numeral.writable v = true) → ¬ (Channel.fixture f).AwaitsUnwritable) ∧
      (¬ q.outputs.toList <+: es → (Channel.fixture f).AwaitsUnwritable →
        (∃ e, F.1 = .error e ∧ e.kind = .unwritten) ∧ F.2.status = .running) ∧
      (q.outputs.toList <+: es → SameState Q.2 F.2 ∧ SameOutcome Q.1 F.1) ∧
      (F.1 = .ok .halted ∧ f.finish = .ok () ↔
        Q.1 = .ok .halted ∧ q.outputs.toList = es ∧ q.pending = []) := by
  intro Q F
  obtain ⟨k, -, hQ⟩ := exists_runs (boot image (.queue (.ofInputs xs)) L lenient)
  obtain ⟨i, -, hF⟩ := exists_runs (boot image (.fixture (.ofLists xs es)) L lenient)
  obtain ⟨q, hq⟩ : ∃ q, Q.2.channel = .queue q := by
    rw [hQ.snd_eq_after]; exact after_queue ⟨_, rfl⟩ k
  obtain ⟨f, hf, hexpected⟩ : ∃ f, F.2.channel = .fixture f ∧ f.expected = es.toArray := by
    have hstart : ∃ f, (boot image (.fixture (.ofLists xs es)) L lenient).channel = .fixture f ∧
        f.expected = es.toArray := ⟨_, rfl, rfl⟩
    rw [hF.snd_eq_after]
    exact after_fixture hstart i
  have hfits : (∀ v ∈ es, Numeral.writable v = true) → ¬ (Channel.fixture f).AwaitsUnwritable := by
    rintro hes ⟨v, hv, hlong⟩
    rw [hexpected, List.getElem?_toArray] at hv
    rw [hes v (List.mem_of_getElem? hv)] at hlong
    cases hlong
  have hbeside : Beside (Rehearsal xs es) (boot image (.queue (.ofInputs xs)) L lenient)
      (boot image (.fixture (.ofLists xs es)) L lenient) :=
    ⟨rfl, rfl, rfl, rfl, rfl, ⟨_, _, rfl, rfl, rfl, rfl, Nat.zero_le _, Nat.zero_le _, rfl, rfl⟩,
      Memory.wordy_ofImage image⟩
  refine ⟨q, f, hq, hf, ?_⟩
  rcases hQ.beside (Rehearsal.lockstep xs es) hbeside with ⟨s, hs, hsame, hb⟩ | ⟨j, s, e, hs, he, hstray⟩
  · -- the fixture kept up to the end
    have hFs : F = s := hs.run_eq
    subst hFs
    obtain ⟨q', f', hq', hf', hr⟩ := hb.channel
    rw [hq] at hq'
    rw [hf] at hf'
    cases hq'
    cases hf'
    have hpre : q.outputs.toList <+: es := by rw [hr.outputs]; exact List.take_prefix _ _
    refine ⟨⟨?_, ?_⟩, hfits, fun h => absurd hpre h, ?_, ?_⟩
    · rintro ⟨e, he, hk⟩
      obtain ⟨e', he', hk'⟩ := hsame.left_error he
      exact absurd (hk'.trans hk) (run_queue_kind ⟨_, rfl⟩ he')
    · rintro ⟨h, -⟩; exact absurd hpre h
    · intro _
      exact ⟨hb.sameState, hsame⟩
    · rw [hr.finish_iff, hsame.eq_ok_iff, and_comm (a := q.pending = [])]
  · -- the fixture refused a value
    have hFs : F = s := hs.run_eq
    subst hFs
    obtain ⟨hfamily, q', hq', hpre⟩ := hstray
    rw [hq] at hq'
    cases hq'
    have hawaits := run_refused image (.ofLists xs es) f L lenient he hfamily hf
    refine ⟨⟨?_, ?_⟩, hfits, ?_, fun h => absurd h hpre, ⟨?_, ?_⟩⟩
    · rintro ⟨e', he', hk⟩
      cases he.symm.trans he'
      obtain ⟨-, hw⟩ := (Fault.kind_eq_iff (by simp)).1 hk
      refine ⟨hpre, fun hc => ?_⟩
      rw [hawaits.2 hc] at hw
      cases hw
    · rintro ⟨-, hc⟩
      have hw : e.writable = true := by
        cases hw : e.writable with
        | true => rfl
        | false => exact absurd (hawaits.1 hw) hc
      exact ⟨e, he, (Fault.kind_of_writable hw).trans hfamily⟩
    · intro _ hc
      have hw := hawaits.2 hc
      refine ⟨⟨e, he, Fault.kind_eq_unwritten_iff.2 hw⟩, ?_⟩
      rcases hF.ends rfl with ⟨hok, -⟩ | ⟨e', he', hstatus, -⟩
      · rw [he] at hok; cases hok
      · cases he.symm.trans he'
        rw [hw] at hstatus
        exact hstatus
    · rintro ⟨h, -⟩; rw [he] at h; cases h
    · rintro ⟨-, h, -⟩
      rw [h] at hpre
      exact absurd (List.prefix_refl es) hpre

/-- **A fixture that cannot say what it expects**: a number of one digit more than can be written. The
program writes another number, and what is raised is no fault of the fixture; the machine is left
running. -/
theorem run_fixture_unwritten :
    let expected : Int := Nat.pow 10 Numeral.maxDigits
    let Q : Machine := boot [104, 1, 99] (.queue (.ofInputs [])) 9 false
    let F : Machine := boot [104, 1, 99] (.fixture (.ofLists [] [expected])) 9 false
    Q.run.2.channel = .queue ⟨[], #[1]⟩ ∧ ¬ [1] <+: [expected] ∧
      ¬ (∃ e, F.run.1 = .error e ∧ e.kind = .fixture) ∧ F.run.2.status = .running := by
  intro expected
  have hlong : Numeral.writable expected = false := Numeral.writable_pow
  clear_value expected
  intro Q F
  have hexpected : (Fixture.ofLists [] [expected]).expected[0]? = some expected := rfl
  obtain ⟨hne, hwrite, hkind⟩ :=
    Fixture.write_of_unwritable hexpected rfl hlong (show Numeral.writable 1 = true by decide)
  have hact : F.act F.next = (.error (.wrongOutput 0 expected 1), F) := by
    have hnext : F.next = .emit 1 2 := by rfl
    rw [hnext]
    simp only [act, F, boot, Channel.write, hwrite]
  have hstep : F.step = (.error (.wrongOutput 0 expected 1), F) := by
    rw [step_of_error rfl hact, fail_of_unwritable hkind]
  have hrun : F.run = (.error (.wrongOutput 0 expected 1), F) :=
    (Runs.last hstep (by simp)).run_eq
  refine ⟨by rfl, by simpa using hne, ?_, by rw [hrun]; rfl⟩
  rintro ⟨e, he, hk⟩
  rw [hrun] at he
  cases he
  rw [Fault.kind_eq_unwritten_iff.2 hkind] at hk
  cases hk

end Machine

end Intcode
