import Intcode.Proofs.Exchange
import Intcode.Proofs.Lockstep

/-!
# Input that was not read

What a machine does depends on the input that it has read, and on nothing behind it.
A machine on a queue is compared with the machine on the same queue with more values
behind: as long as the first one is not left waiting, the two take the same steps.

* `step_followed`: a step that is not left waiting commutes with more input.
* `after_fed`: a machine that reads nothing of what is behind is not left waiting
  without it.
* `run_causal`: machines whose inputs begin alike are alike until they have read beyond.
-/

namespace Intcode

/-- Has the call delivered a value? -/
def Exchange.receives : Exchange → Bool
  | .read (.ok _) => true
  | _ => false

/-- Was a value asked for in vain? -/
def Exchange.starves : Exchange → Bool
  | .read (.error _) => true
  | _ => false

/-- The channel with values behind those that wait on its queue. -/
def Channel.followed (behind : List Int) : Channel → Channel
  | .queue q => .queue { q with pending := q.pending ++ behind }
  | c => c

theorem Channel.read_followed {c : Channel} {v : Int} (h : c.read.1 = .ok v) (behind : List Int) :
    (c.followed behind).read = (.ok v, c.read.2.followed behind) := by
  cases c with
  | queue q =>
    obtain ⟨pending, outputs⟩ := q
    cases pending with
    | nil => cases h
    | cons w rest => cases h; rfl
  | fixture f => exact Prod.ext h rfl
  | terminal t => exact Prod.ext h rfl

theorem Channel.write_followed (c : Channel) (v : Int) (behind : List Int) :
    (c.followed behind).write v = ((c.write v).1, (c.write v).2.followed behind) := by
  cases c <;> rfl

namespace Machine

variable {m : Machine}

/-- The machine with values behind those that wait on its queue. -/
def followed (behind : List Int) (m : Machine) : Machine :=
  { m with channel := m.channel.followed behind }

/-- Is the next step left waiting for a value? -/
def Starves (m : Machine) : Prop := ∃ e, m.exchange? = some (.read (.error e))

theorem read_of_not_starves (h : ¬ m.Starves) (hs : m.status = .running) {target : Except Fault Int}
    {next : Int} (hnext : m.next = .take target next) : ∃ v, m.channel.read.1 = .ok v := by
  cases hr : m.channel.read.1 with
  | ok v => exact ⟨v, rfl⟩
  | error e =>
    refine absurd ⟨e, ?_⟩ h
    rw [exchange?_of_running hs, hnext, Action.exchange?, hr]

/-- **A step that is not left waiting commutes with more input.** -/
theorem step_followed (h : ¬ m.Starves) (behind : List Int) :
    (m.followed behind).step = (m.step.1, m.step.2.followed behind) := by
  by_cases hs : m.status ≠ .running
  · rw [step_of_stopped hs]
    exact step_of_stopped hs
  refine step_commutes (T := followed behind) ⟨fun _ => rfl, fun _ => rfl, fun _ _ => rfl⟩ ?_
  show (m.followed behind).act m.next = _
  cases hnext : m.next with
  | take target next =>
    obtain ⟨v, hv⟩ := read_of_not_starves h (Decidable.not_not.1 hs) hnext
    have hread : m.channel.read = (.ok v, m.channel.read.2) := by rw [← hv]
    simp only [act, followed, Channel.read_followed hv]
    rw [hread]
    cases target <;> rfl
  | emit value next =>
    have hwrite := m.channel.write_followed value behind
    simp only [act, followed, hwrite]
    cases m.channel.write value with
    | mk r c => cases r <;> rfl
  | _ => rfl

/-- Its call is the same, too. -/
theorem exchange?_followed (h : ¬ m.Starves) (behind : List Int) :
    (m.followed behind).exchange? = m.exchange? := by
  by_cases hs : m.status ≠ .running
  · rw [exchange?_of_stopped hs]
    exact exchange?_of_stopped hs
  have hs : m.status = .running := Decidable.not_not.1 hs
  rw [exchange?_of_running hs, exchange?_of_running (m := m.followed behind) hs]
  show m.next.exchange? (m.channel.followed behind) = _
  cases hnext : m.next with
  | take target next =>
    obtain ⟨v, hv⟩ := read_of_not_starves h hs hnext
    simp only [Action.exchange?, Channel.read_followed hv, hv]
  | emit value next => simp only [Action.exchange?, Channel.write_followed]
  | _ => rfl

/-- A step takes as many values off the queue as its call delivers. -/
theorem step_pending {q : Queue} (hq : m.channel = .queue q) :
    ∃ q', m.step.2.channel = .queue q' ∧
      q'.pending.length + m.exchange?.toList.countP Exchange.receives = q.pending.length := by
  rw [step_channel]
  cases hx : m.exchange? with
  | none => exact ⟨q, hq, rfl⟩
  | some x =>
    cases x with
    | write v outcome => exact ⟨q.write v, by rw [hq]; rfl, rfl⟩
    | read outcome =>
      obtain ⟨-, rfl, -⟩ := next_of_read hx
      refine ⟨q.read.2, by rw [hq]; rfl, ?_⟩
      rw [hq]
      obtain ⟨pending, outputs⟩ := q
      cases pending <;> rfl

/-- **A machine that needs nothing of what is behind is never left waiting without it.** -/
theorem after_fed (behind : List Int) {q : Queue} {n : Nat} (hq : m.channel = .queue q)
    (hcount : ((m.followed behind).exchanges n).countP Exchange.receives ≤ q.pending.length)
    (hfed : ∀ x ∈ (m.followed behind).exchanges n, x.starves = false) :
    ∀ k < n, ¬ (m.after k).Starves := by
  induction n generalizing m q with
  | zero => intro k hk; omega
  | succ n ih =>
    rw [exchanges, List.countP_append] at hcount
    rw [exchanges] at hfed
    have hnow : ¬ m.Starves := by
      rintro ⟨e, he⟩
      obtain ⟨hs, hread, target, next, hnext⟩ := next_of_read he
      have hempty : q.pending.length = 0 := by
        rw [hq] at hread
        obtain ⟨pending, outputs⟩ := q
        cases pending with
        | nil => rfl
        | cons v rest => cases hread
      -- the machine with more input asks as well: it is left waiting, or has read beyond
      have hask : (m.followed behind).exchange? =
          some (.read (m.followed behind).channel.read.1) := by
        rw [exchange?_of_running (m := m.followed behind) hs]
        show m.next.exchange? _ = _
        rw [hnext]
        rfl
      rw [hask] at hcount hfed
      cases hr : (m.followed behind).channel.read.1 with
      | error e' =>
        have hstarves := hfed (.read (.error e')) (by rw [hr]; simp)
        cases hstarves
      | ok v =>
        rw [hr, hempty] at hcount
        simp [Exchange.receives] at hcount
    have hstep : (m.followed behind).step.2 = m.step.2.followed behind := by
      rw [step_followed hnow]
    rw [exchange?_followed hnow, hstep] at hcount hfed
    obtain ⟨q', hq', hlen⟩ := step_pending hq
    have hlater : ∀ k < n, ¬ (m.step.2.after k).Starves :=
      ih hq' (by omega) fun x hx => hfed x (List.mem_append_right _ hx)
    intro k hk
    cases k with
    | zero => exact hnow
    | succ k => exact hlater k (by omega)

/-- What waits is the end of what waited. -/
theorem after_suffix {q : Queue} (hq : m.channel = .queue q) (n : Nat) :
    ∃ q', (m.after n).channel = .queue q' ∧ q'.pending <:+ q.pending := by
  refine after_channel (P := fun c => ∃ q', c = .queue q' ∧ q'.pending <:+ q.pending) ?_ ?_
    ⟨q, hq, List.suffix_refl _⟩ n
  · rintro c ⟨⟨pending, outputs⟩, rfl, hsuffix⟩
    refine ⟨_, rfl, ?_⟩
    cases pending with
    | nil => exact hsuffix
    | cons v rest => exact (List.suffix_cons v rest).trans hsuffix
  · rintro c v ⟨q', rfl, hsuffix⟩
    exact ⟨_, rfl, hsuffix⟩

/-- **Machines whose inputs begin alike are alike until they have read beyond.** -/
theorem after_causal {image p a : List Int} {L : Int} {lenient : Bool} {n : Nat}
    (hcount : ((boot image (.queue (.ofInputs (p ++ a))) L lenient).exchanges n).countP
      Exchange.receives ≤ p.length)
    (hfed : ∀ x ∈ (boot image (.queue (.ofInputs (p ++ a))) L lenient).exchanges n,
      x.starves = false) (b : List Int) :
    let m := (boot image (.queue (.ofInputs (p ++ a))) L lenient).after n
    let m' := (boot image (.queue (.ofInputs (p ++ b))) L lenient).after n
    SameState m m' ∧ m.error = m'.error ∧ ∃ q outputs, q <:+ p ∧
      m.channel = .queue ⟨q ++ a, outputs⟩ ∧ m'.channel = .queue ⟨q ++ b, outputs⟩ := by
  intro m m'
  -- both are the machine on the common input, with more behind it
  let m₀ : Machine := boot image (.queue (.ofInputs p)) L lenient
  have hnever : ∀ k < n, ¬ (m₀.after k).Starves :=
    after_fed a (m := m₀) (q := .ofInputs p) rfl hcount hfed
  have hafter : ∀ behind, (m₀.followed behind).after n = (m₀.after n).followed behind := fun behind =>
    after_commutes_of fun k hk => step_followed (hnever k hk) behind
  have hm : m = (m₀.after n).followed a := hafter a
  have hm' : m' = (m₀.after n).followed b := hafter b
  obtain ⟨q, hq, hsuffix⟩ := after_suffix (m := m₀) (q := .ofInputs p) rfl n
  rw [hm, hm']
  refine ⟨⟨rfl, rfl, rfl, rfl⟩, rfl, q.pending, q.outputs, hsuffix, ?_, ?_⟩
  · simp only [followed, hq, Channel.followed]
  · simp only [followed, hq, Channel.followed]

/-- A run that halts is never left waiting. -/
theorem Runs.fed {n : Nat} {r : Except Fault Status × Machine} {s : Status} (h : Runs n m r)
    (hr : r.1 = .ok s) : ∀ x ∈ m.exchanges n, x.starves = false := by
  intro x hx
  obtain ⟨k, hk, hxk⟩ := mem_exchanges_iff.1 hx
  obtain ⟨s', hs'⟩ := h.step_ok hr k hk
  cases x with
  | write v outcome => rfl
  | read outcome =>
    cases outcome with
    | ok v => rfl
    | error e =>
      rw [step_of_refused hxk rfl] at hs'
      cases hs'

/-- **Causality.** Take a machine on the input `p ++ a` and one on the input `p ++ b`. After any number
of steps in which the first has read at most as many values as `p` has, and has asked for none in
vain, both are in the same state, have failed for the same cause and have written the same values, and
what waits is the same end of `p`, with `a` and with `b` behind it. So if the first halts and has read
no more, then the second halts in the same state and with the same outputs. -/
theorem run_causal (image p a b : List Int) (L : Int) (lenient : Bool) :
    let m : Machine := boot image (.queue (.ofInputs (p ++ a))) L lenient
    let m' : Machine := boot image (.queue (.ofInputs (p ++ b))) L lenient
    (∀ n, (m.exchanges n).countP Exchange.receives ≤ p.length →
      (∀ x ∈ m.exchanges n, x.starves = false) →
      SameState (m.after n) (m'.after n) ∧ (m.after n).error = (m'.after n).error ∧
        ∃ q outputs, q <:+ p ∧ (m.after n).channel = .queue ⟨q ++ a, outputs⟩ ∧
          (m'.after n).channel = .queue ⟨q ++ b, outputs⟩) ∧
    (m.run.1 = .ok .halted → (m.exchanges m.run.2.tick).countP Exchange.receives ≤ p.length →
      m'.run.1 = .ok .halted ∧ SameState m.run.2 m'.run.2 ∧
        ∃ q outputs, q <:+ p ∧ m.run.2.channel = .queue ⟨q ++ a, outputs⟩ ∧
          m'.run.2.channel = .queue ⟨q ++ b, outputs⟩) := by
  intro m m'
  refine ⟨fun n hcount hfed => after_causal hcount hfed b, ?_⟩
  intro hhalt hcount
  obtain ⟨n, -, hruns⟩ := exists_runs m
  rcases hruns.ends rfl with ⟨-, hstatus, htick⟩ | ⟨e, he, -⟩
  · have hn : m.run.2.tick = n := by rw [htick]; exact Nat.zero_add n
    rw [hn] at hcount
    rw [hruns.snd_eq_after] at hstatus ⊢
    obtain ⟨hsame, -, hqueues⟩ := after_causal hcount (hruns.fed hhalt) b
    have hstatus' : (m'.after n).status = .halted := hsame.2.2.2.symm.trans hstatus
    rw [run_of_halted rfl hstatus']
    exact ⟨rfl, hsame, hqueues⟩
  · rw [hhalt] at he
    cases he

/-- A program that reads one value and then halts does not see what is behind it, at any step. -/
theorem run_causal_echo :
    let m : List Int → Machine := fun inputs => boot [3, 0, 4, 0, 99] (.queue (.ofInputs inputs)) 9 false
    SameState ((m [5, 6]).after 2) ((m [5]).after 2) ∧
      (m [5, 6]).run.1 = .ok .halted ∧ (m [5]).run.1 = .ok .halted ∧
      SameState (m [5, 6]).run.2 (m [5]).run.2 := by
  intro m
  have hcount : ((m [5, 6]).exchanges 2).countP Exchange.receives ≤ 1 ∧
      (∀ x ∈ (m [5, 6]).exchanges 2, x.starves = false) := by
    subst m
    decide +kernel
  have hhalt : (m [5, 6]).run.1 = .ok .halted := by rfl
  have hread : ((m [5, 6]).exchanges (m [5, 6]).run.2.tick).countP Exchange.receives ≤ 1 := by
    subst m
    decide +kernel
  obtain ⟨hsteps, hrun⟩ := run_causal [3, 0, 4, 0, 99] [5] [6] [] 9 false
  obtain ⟨hhalt', hsame, -⟩ := hrun hhalt hread
  exact ⟨(hsteps 2 hcount.1 hcount.2).1, hhalt, hhalt', hsame⟩

end Machine

end Intcode
