import Mathlib.Data.List.TakeDrop
import Intcode.Channel

/-!
# What passes through a channel

A channel can be called in any order, and calls may go on after some that failed. A
queue neither loses nor repeats nor reorders a value: what its reads have returned and
what still waits are together what was supplied. A fixture counts exactly what it has
given out and what it has accepted.

* `Channel.history`: calls with what they answered. `Call.returned`, `Call.accepted` are
  the values that reads have returned and the values of writes that were accepted.
* `Queue.call_conserves`, `Fixture.Follows.call`: what one call does.
* `Queue.serve_conserves`, `Fixture.Follows.serve`: what any number of calls do.
* `Channel.serve_queue`: a queue loses nothing.
* `Channel.serve_fixture`: a fixture accounts for what has passed.
-/

namespace Intcode

/-- A call of a channel. -/
inductive Call where
  | read
  | write (value : Int)
  /-- Supplies a value. Only a queue takes one. -/
  | push (value : Int)
  /-- Asks if all is used up. Only a fixture has something to check. -/
  | finish
  deriving DecidableEq, Repr

/-- What a call answers: the value, if it is a read, or why it failed. -/
abbrev Call.Answer := Except Fault (Option Int)

namespace Call

/-- What a call supplies. -/
def supplied : Call → List Int
  | push v => [v]
  | _ => []

/-- What a call is to write. -/
def written : Call → List Int
  | write v => [v]
  | _ => []

/-- What a call has returned. -/
def returned : Call × Answer → List Int
  | (read, .ok (some v)) => [v]
  | _ => []

/-- What a call has written and was accepted. -/
def accepted : Call × Answer → List Int
  | (write v, .ok _) => [v]
  | _ => []

end Call

namespace Channel

/-- Makes a call: what it answers, and the channel after it. -/
def call (c : Channel) : Call → Call.Answer × Channel
  | .read => (c.read.1.map some, c.read.2)
  | .write v => ((c.write v).1.map fun _ => none, (c.write v).2)
  | .push v => (.ok none, c.push v)
  | .finish => (c.finish.map fun _ => none, c)

/-- The channel after a sequence of calls, each made whether those before it failed or not. -/
def serve (c : Channel) : List Call → Channel
  | [] => c
  | call :: calls => serve (c.call call).2 calls

/-- A sequence of calls with what each of them answers. -/
def history (c : Channel) : List Call → List (Call × Call.Answer)
  | [] => []
  | call :: calls => (call, (c.call call).1) :: history (c.call call).2 calls

end Channel

/-! ## Queues -/

namespace Queue

/-- **One call of a queue**: what it returns and what waits after it is what waited before and what it
supplies. -/
theorem call_conserves (q : Queue) (call : Call) :
    ∃ q', ((Channel.queue q).call call).2 = .queue q' ∧
      Call.returned (call, ((Channel.queue q).call call).1) ++ q'.pending = q.pending ++ call.supplied ∧
      q'.outputs.toList = q.outputs.toList ++ call.written := by
  cases call with
  | read =>
    obtain ⟨pending, outputs⟩ := q
    cases pending with
    | nil => exact ⟨_, rfl, rfl, (List.append_nil _).symm⟩
    | cons v rest => exact ⟨_, rfl, (List.append_nil _).symm, (List.append_nil _).symm⟩
  | write v => exact ⟨q.write v, rfl, (List.append_nil _).symm, by simp [write, Call.written]⟩
  | push v => exact ⟨q.push v, rfl, rfl, (List.append_nil _).symm⟩
  | finish => exact ⟨q, rfl, (List.append_nil _).symm, (List.append_nil _).symm⟩

/-- **Any number of calls of a queue.** -/
theorem serve_conserves (q : Queue) (calls : List Call) :
    ∃ q', (Channel.queue q).serve calls = .queue q' ∧
      ((Channel.queue q).history calls).flatMap Call.returned ++ q'.pending =
        q.pending ++ calls.flatMap Call.supplied ∧
      q'.outputs.toList = q.outputs.toList ++ calls.flatMap Call.written := by
  induction calls generalizing q with
  | nil => exact ⟨q, rfl, (List.append_nil _).symm, (List.append_nil _).symm⟩
  | cons call calls ih =>
    obtain ⟨q₁, hq₁, hpending₁, houtputs₁⟩ := q.call_conserves call
    obtain ⟨q', hq', hpending, houtputs⟩ := ih q₁
    refine ⟨q', by rw [Channel.serve, hq₁, hq'], ?_, ?_⟩
    · rw [Channel.history, hq₁, List.flatMap_cons, List.flatMap_cons, List.append_assoc, hpending,
        ← List.append_assoc, hpending₁, List.append_assoc]
    · rw [houtputs, houtputs₁, List.append_assoc, List.flatMap_cons]

/-- A read fails exactly if nothing waits, and then changes nothing. -/
theorem read_cases (q : Queue) :
    q.pending = [] ∧ q.read = (.error .queueEmpty, q) ∨
      ∃ v rest, q.pending = v :: rest ∧ q.read.1 = .ok v := by
  unfold read
  cases hpending : q.pending with
  | nil => exact .inl ⟨rfl, rfl⟩
  | cons v rest => exact .inr ⟨v, rest, rfl, rfl⟩

end Queue

/-- **A queue loses nothing.** Start with some values that wait, and push, read and write in any order.

* What the reads have returned, followed by what waits, is what was there at the start followed by
  what was pushed.
* What was collected is what was written, in order.
* The next read fails exactly if all that was supplied was returned. It is out of input then, and
  changes nothing.
* After a push the next read succeeds, and if all had been returned it returns what was pushed. -/
theorem Channel.serve_queue (inputs : List Int) (calls : List Call) :
    let c := Channel.queue (.ofInputs inputs)
    let returned := (c.history calls).flatMap Call.returned
    let supplied := inputs ++ calls.flatMap Call.supplied
    ∃ q, c.serve calls = .queue q ∧ returned ++ q.pending = supplied ∧
      q.outputs.toList = calls.flatMap Call.written ∧
      ((∃ e, q.read.1 = .error e) ↔ returned = supplied) ∧
      (∀ e, q.read.1 = .error e → e.kind = .exhausted ∧ q.read.2 = q) ∧
      ∀ v, ∃ w, (q.push v).read.1 = .ok w ∧ (returned = supplied → w = v) := by
  intro c returned supplied
  obtain ⟨q, hq, hpending, houtputs⟩ := Queue.serve_conserves (.ofInputs inputs) calls
  have hconserved : returned ++ q.pending = supplied := hpending
  have hempty : q.pending = [] ↔ returned = supplied := by
    rw [← hconserved, List.self_eq_append_right]
  refine ⟨q, hq, hconserved, houtputs, ?_, ?_, ?_⟩
  · rw [← hempty]
    rcases q.read_cases with ⟨hnone, hread⟩ | ⟨v, rest, hsome, hread⟩
    · simp [hnone, hread]
    · simp [hsome, hread]
  · intro e he
    rcases q.read_cases with ⟨-, hread⟩ | ⟨v, rest, -, hread⟩
    · rw [hread] at he ⊢
      cases he
      exact ⟨rfl, rfl⟩
    · rw [hread] at he
      cases he
  · intro v
    rw [← hempty]
    rcases (q.push v).read_cases with ⟨hnone, -⟩ | ⟨w, rest, hsome, hread⟩
    · simp [Queue.push] at hnone
    · refine ⟨w, hread, ?_⟩
      intro hnone
      rw [Queue.push, hnone] at hsome
      cases hsome
      rfl

/-! ## Fixtures -/

namespace Fixture

/-- A fixture for some input `xs` and expected output `es`, of which part was used. -/
structure Follows (xs es : List Int) (f : Fixture) : Prop where
  inputs : f.inputs = xs.toArray
  expected : f.expected = es.toArray
  readCount : f.readCount ≤ xs.length
  writeCount : f.writeCount ≤ es.length

variable {xs es : List Int} {f : Fixture}

/-- A read gives out the next value of the input. Where there is none it changes nothing. -/
theorem Follows.read_cases (h : Follows xs es f) :
    (∃ v, xs[f.readCount]? = some v ∧ f.read = (.ok v, { f with readCount := f.readCount + 1 })) ∨
      xs[f.readCount]? = none ∧ ∃ e, f.read = (.error e, f) := by
  unfold read
  rw [h.inputs, List.getElem?_toArray]
  cases xs[f.readCount]? with
  | none => exact .inr ⟨rfl, _, rfl⟩
  | some v => exact .inl ⟨v, rfl, rfl⟩

/-- A write is accepted if it is the next value of the expected output, and changes nothing
otherwise. -/
theorem Follows.write_cases (h : Follows xs es f) (v : Int) :
    es[f.writeCount]? = some v ∧ f.write v = (.ok (), { f with writeCount := f.writeCount + 1 }) ∨
      es[f.writeCount]? ≠ some v ∧ ∃ e, f.write v = (.error e, f) := by
  unfold write
  rw [h.expected, List.getElem?_toArray]
  cases es[f.writeCount]? with
  | none => exact .inr ⟨by simp, _, rfl⟩
  | some w =>
    by_cases hw : v = w
    · subst hw
      exact .inl ⟨rfl, if_pos rfl⟩
    · exact .inr ⟨by simpa using Ne.symm hw, _, if_neg hw⟩

theorem Follows.read_eq_ok_iff (h : Follows xs es f) (v : Int) :
    f.read.1 = .ok v ↔ xs[f.readCount]? = some v := by
  rcases h.read_cases with ⟨w, hnext, hread⟩ | ⟨hnone, e, hread⟩
  · simp [hnext, hread]
  · simp [hnone, hread]

theorem Follows.write_eq_ok_iff (h : Follows xs es f) (v : Int) :
    (f.write v).1 = .ok () ↔ es[f.writeCount]? = some v := by
  rcases h.write_cases v with ⟨hnext, hwrite⟩ | ⟨hother, e, hwrite⟩
  · simp [hnext, hwrite]
  · simp [hother, hwrite]

/-- **One call of a fixture** moves its counts by what it returned and accepted. -/
theorem Follows.call (h : Follows xs es f) (call : Call) :
    ∃ f', ((Channel.fixture f).call call).2 = .fixture f' ∧ Follows xs es f' ∧
      xs.take f'.readCount = xs.take f.readCount ++
        Call.returned (call, ((Channel.fixture f).call call).1) ∧
      es.take f'.writeCount = es.take f.writeCount ++
        Call.accepted (call, ((Channel.fixture f).call call).1) := by
  cases call with
  | read =>
    simp only [Channel.call, Channel.read]
    rcases h.read_cases with ⟨v, hnext, hread⟩ | ⟨-, e, hread⟩
    · obtain ⟨hlt, -⟩ := List.getElem?_eq_some_iff.1 hnext
      rw [hread]
      refine ⟨_, rfl, ⟨h.inputs, h.expected, hlt, h.writeCount⟩, ?_, (List.append_nil _).symm⟩
      show xs.take (f.readCount + 1) = _
      rw [List.take_add_one, hnext]
      rfl
    · rw [hread]
      exact ⟨f, rfl, h, (List.append_nil _).symm, (List.append_nil _).symm⟩
  | write v =>
    simp only [Channel.call, Channel.write]
    rcases h.write_cases v with ⟨hnext, hwrite⟩ | ⟨-, e, hwrite⟩
    · obtain ⟨hlt, -⟩ := List.getElem?_eq_some_iff.1 hnext
      rw [hwrite]
      refine ⟨_, rfl, ⟨h.inputs, h.expected, h.readCount, hlt⟩, (List.append_nil _).symm, ?_⟩
      show es.take (f.writeCount + 1) = _
      rw [List.take_add_one, hnext]
      rfl
    · rw [hwrite]
      exact ⟨f, rfl, h, (List.append_nil _).symm, (List.append_nil _).symm⟩
  | push v => exact ⟨f, rfl, h, (List.append_nil _).symm, (List.append_nil _).symm⟩
  | finish => exact ⟨f, rfl, h, (List.append_nil _).symm, (List.append_nil _).symm⟩

/-- **Any number of calls of a fixture.** -/
theorem Follows.serve (h : Follows xs es f) (calls : List Call) :
    ∃ f', (Channel.fixture f).serve calls = .fixture f' ∧ Follows xs es f' ∧
      xs.take f'.readCount = xs.take f.readCount ++
        ((Channel.fixture f).history calls).flatMap Call.returned ∧
      es.take f'.writeCount = es.take f.writeCount ++
        ((Channel.fixture f).history calls).flatMap Call.accepted := by
  induction calls generalizing f with
  | nil => exact ⟨f, rfl, h, (List.append_nil _).symm, (List.append_nil _).symm⟩
  | cons call calls ih =>
    obtain ⟨f₁, hf₁, hfollows₁, hread₁, hwrite₁⟩ := h.call call
    obtain ⟨f', hf', hfollows, hread, hwrite⟩ := ih hfollows₁
    refine ⟨f', by rw [Channel.serve, hf₁, hf'], hfollows, ?_, ?_⟩
    · rw [Channel.history, hf₁, List.flatMap_cons, hread, hread₁, List.append_assoc]
    · rw [Channel.history, hf₁, List.flatMap_cons, hwrite, hwrite₁, List.append_assoc]

/-- A call that is refused changes nothing, and neither does one that asks if all is used up. -/
theorem Follows.call_refused (h : Follows xs es f) {call : Call}
    (hc : (∃ e, ((Channel.fixture f).call call).1 = .error e) ∨ call = .finish) :
    ((Channel.fixture f).call call).2 = .fixture f := by
  cases call with
  | read =>
    obtain ⟨e, he⟩ : ∃ e, ((Channel.fixture f).call .read).1 = .error e := by simpa using hc
    simp only [Channel.call, Channel.read] at he ⊢
    rcases h.read_cases with ⟨v, -, hread⟩ | ⟨-, e', hread⟩
    · rw [hread] at he
      cases he
    · rw [hread]
  | write v =>
    obtain ⟨e, he⟩ : ∃ e, ((Channel.fixture f).call (.write v)).1 = .error e := by simpa using hc
    simp only [Channel.call, Channel.write] at he ⊢
    rcases h.write_cases v with ⟨-, hwrite⟩ | ⟨-, e', hwrite⟩
    · rw [hwrite] at he
      cases he
    · rw [hwrite]
  | push v => rfl
  | finish => rfl

/-- **All is used up if both counts have come to their end**, and the input is looked at first. -/
theorem Follows.finish_eq (h : Follows xs es f) :
    f.finish =
      if f.readCount ≠ xs.length then .error (.inputUnread f.readCount xs.length)
      else if f.writeCount ≠ es.length then .error (.outputMissing f.writeCount es.length)
      else .ok () := by
  unfold finish
  rw [h.inputs, h.expected, List.size_toArray, List.size_toArray]

theorem Follows.finish_eq_ok_iff (h : Follows xs es f) :
    f.finish = .ok () ↔ f.readCount = xs.length ∧ f.writeCount = es.length := by
  rw [h.finish_eq]
  by_cases hread : f.readCount = xs.length
  · by_cases hwrite : f.writeCount = es.length
    · simp [hread, hwrite]
    · simp [hread, hwrite]
  · simp [hread]

end Fixture

/-- **A fixture accounts for what has passed.** Take a fixture of which nothing was used, and read,
write and ask if all is used up in any order, going on after calls that fail.

* The values that reads returned are the first of the input, and those of the writes that were
  accepted are the first of the expected output, as many of them as the fixture has counted.
* The next read returns the next value of the input, and the next write is accepted exactly if its
  value is the next one that is expected.
* A call that is refused changes nothing, and neither does one that asks if all is used up.
* All is used up exactly if all input was returned and all expected output was accepted. Input that
  is left comes before output that is missing. -/
theorem Channel.serve_fixture (xs es : List Int) (calls : List Call) :
    let c := Channel.fixture (.ofLists xs es)
    let returned := (c.history calls).flatMap Call.returned
    let accepted := (c.history calls).flatMap Call.accepted
    ∃ f, c.serve calls = .fixture f ∧
      returned = xs.take f.readCount ∧ returned.length = f.readCount ∧
      accepted = es.take f.writeCount ∧ accepted.length = f.writeCount ∧
      (∀ v, f.read.1 = .ok v ↔ xs[f.readCount]? = some v) ∧
      (∀ v, (f.write v).1 = .ok () ↔ es[f.writeCount]? = some v) ∧
      (∀ call, (∃ e, ((Channel.fixture f).call call).1 = .error e) ∨ call = .finish →
        ((Channel.fixture f).call call).2 = .fixture f) ∧
      (f.finish = .ok () ↔ returned = xs ∧ accepted = es) ∧
      (returned ≠ xs → f.finish = .error (.inputUnread f.readCount xs.length)) ∧
      (returned = xs → accepted ≠ es → f.finish = .error (.outputMissing f.writeCount es.length)) := by
  intro c returned accepted
  have hfresh : Fixture.Follows xs es (.ofLists xs es) := ⟨rfl, rfl, Nat.zero_le _, Nat.zero_le _⟩
  obtain ⟨f, hf, hfollows, hread, hwrite⟩ := hfresh.serve calls
  have hreturned : returned = xs.take f.readCount := hread.symm
  have haccepted : accepted = es.take f.writeCount := hwrite.symm
  have hxs := hfollows.readCount
  have hes := hfollows.writeCount
  have hallread : returned = xs ↔ f.readCount = xs.length := by
    rw [hreturned, List.take_eq_self_iff]
    omega
  have hallwritten : accepted = es ↔ f.writeCount = es.length := by
    rw [haccepted, List.take_eq_self_iff]
    omega
  refine ⟨f, hf, hreturned, ?_, haccepted, ?_, hfollows.read_eq_ok_iff, hfollows.write_eq_ok_iff,
    fun _ => hfollows.call_refused, ?_, ?_, ?_⟩
  · rw [hreturned, List.length_take]
    omega
  · rw [haccepted, List.length_take]
    omega
  · rw [hallread, hallwritten]
    exact hfollows.finish_eq_ok_iff
  · intro hleft
    rw [ne_eq, hallread] at hleft
    rw [hfollows.finish_eq, if_pos hleft]
  · intro hall hmissing
    rw [hallread] at hall
    rw [ne_eq, hallwritten] at hmissing
    rw [hfollows.finish_eq, if_neg (not_not_intro hall), if_pos hmissing]

end Intcode
