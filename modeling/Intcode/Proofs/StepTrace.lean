import Intcode.Proofs.Access
import Intcode.Proofs.Reachable
import Intcode.Proofs.RunLog

/-!
# The trace of a run

A machine that is not lenient reports each instruction that it has decoded before it
executes it, and counts the instruction after it was executed. So the records of the
trace are numbered by the count, and there is one for each instruction that was
executed; only an instruction that fails has a record and is not counted.

* `trace?_eq_some_iff`: when a step has a record, and which one.
* `Runs.getElem?_trace`: record `k` is that of the machine after `k` steps.
* `Runs.length_trace`: how many records there are, by the last step of the run.
* `run_trace`: the trace of a fresh machine.
-/

namespace Intcode.Machine

variable {m : Machine} {n : Nat} {r : Except Fault Status × Machine}

/-- The records of the trace in the log of a run. -/
def trace (m : Machine) : List Event := m.log.filter Event.isTrace

/-- **A step has a record exactly if it decodes an instruction.** -/
theorem trace?_eq_some_iff {e : Event} :
    m.trace? = some e ↔
      ∃ i, m.status = .running ∧ m.fetch = .ok i ∧ e = .decoded .running m.tick m.ip i := by
  unfold trace?
  constructor
  · intro h
    split at h
    · next i hs hf =>
      cases h
      exact ⟨i, hs, hf, rfl⟩
    · cases h
  · rintro ⟨i, hs, hf, rfl⟩
    rw [hs, hf]

/-- A step that succeeds has a record. -/
theorem trace?_of_step_ok {s : Status} (hs : m.status = .running) (h : m.step.1 = .ok s) :
    ∃ e, m.trace? = some e := by
  have hstep : m.step = (.ok s, m.step.2) := by rw [← h]
  obtain ⟨i, hf, -⟩ := step_pointer hs hstep
  exact ⟨_, trace?_eq_some_iff.2 ⟨i, hs, hf, rfl⟩⟩

theorem step_lenient (m : Machine) : m.step.2.lenient = m.lenient := by
  by_cases hs : m.status = .running
  · have hact := act_lenient m m.next
    obtain ⟨m', ha, hm⟩ | ⟨e, m', ha, hm⟩ := step_cases hs
    · rw [ha] at hact
      rw [hm]
      exact hact
    · rw [ha] at hact
      rw [hm, fail_lenient]
      exact hact
  · rw [step_of_stopped hs]

/-- The last step of a run finds the machine running, and all steps before it have left it so. -/
theorem Runs.exists_last (h : Runs n m r) (hs : m.status = .running) :
    ∃ j, n = j + 1 ∧ (m.after j).status = .running ∧ (m.after j).step = r := by
  induction h with
  | last hm _ => exact ⟨0, rfl, hs, hm⟩
  | @more n m m' r hm _ ih =>
    obtain ⟨-, hs', -⟩ := step_running hm
    obtain ⟨j, rfl, hrunning, hlast⟩ := ih hs'
    have hafter : m.after (j + 1) = m'.after j := by rw [after, hm]
    exact ⟨j + 1, rfl, by rw [hafter]; exact hrunning, by rw [hafter]; exact hlast⟩

/-- **Record `k` of the trace is that of the machine after `k` steps**, if the run takes so many. -/
theorem Runs.getElem?_filter (h : Runs n m r) (hs : m.status = .running) (hl : m.lenient = false)
    (k : Nat) :
    ((m.stepsEvents n).filter Event.isTrace)[k]? = if k < n then (m.after k).trace? else none := by
  induction h generalizing k with
  | @last m r hm hr =>
    have hlist : (m.stepsEvents 1).filter Event.isTrace = m.trace?.toList := by
      rw [stepsEvents, stepsEvents, List.append_nil, filter_isTrace_stepEvents hl]
    rw [hlist]
    cases k with
    | zero => cases htrace : m.trace? <;> simp [after, htrace]
    | succ k => cases m.trace? <;> simp
  | @more n m m' r hm _ ih =>
    obtain ⟨-, hs', -⟩ := step_running hm
    have hl' : m'.lenient = false := by
      have hstep := step_lenient m
      rw [hm, hl] at hstep
      exact hstep
    obtain ⟨e, he⟩ := trace?_of_step_ok hs (s := .running) (by rw [hm])
    rw [stepsEvents, List.filter_append, filter_isTrace_stepEvents hl, he, hm]
    cases k with
    | zero => simp [after, he]
    | succ k =>
      have hk := ih hs' hl' k
      simp [after, hm, hk]

theorem Runs.trace_eq (h : Runs n m r) : m.trace = (m.stepsEvents n).filter Event.isTrace := by
  have hboot : m.bootEvents.filter Event.isTrace = [] := rfl
  have hend : (endEvents r).filter Event.isTrace = [] := by
    obtain ⟨answer, m'⟩ := r
    cases answer <;> rfl
  rw [trace, log, h.runEvents_eq, List.filter_append, List.filter_append, hboot, hend,
    List.nil_append, List.append_nil]

theorem Runs.getElem?_trace (h : Runs n m r) (hs : m.status = .running) (hl : m.lenient = false)
    (k : Nat) : m.trace[k]? = if k < n then (m.after k).trace? else none := by
  rw [h.trace_eq]
  exact h.getElem?_filter hs hl k

/-- A machine that is running, and has counted every step, has not come to the end of its run. -/
theorem Runs.lt_of_running (h : Runs n m r) (hs : m.status = .running) {k : Nat}
    (hk : (m.after k).status = .running) (htick : (m.after k).tick = m.tick + k) : k < n := by
  by_contra hle
  obtain ⟨d, rfl⟩ := Nat.exists_eq_add_of_le (Nat.not_lt.1 hle)
  rw [after_add, ← h.snd_eq_after] at hk htick
  rcases h.ends hs with ⟨-, hhalted, -⟩ | ⟨e, -, -, -, hcount⟩
  · rw [after_of_stopped (by rw [hhalted]; simp), hhalted] at hk
    cases hk
  · -- the step that failed was not counted
    have hbound := after_tick_le r.2 d
    omega

/-- **Which records there are**, in a machine that has counted nothing yet: record `k` has the number
`k`. -/
theorem getElem?_trace_eq_some_iff (hs : m.status = .running) (hl : m.lenient = false)
    (h0 : m.tick = 0) {k : Nat} {e : Event} :
    m.trace[k]? = some e ↔ ∃ i, (m.after k).status = .running ∧ (m.after k).tick = k ∧
      (m.after k).fetch = .ok i ∧ e = .decoded .running k (m.after k).ip i := by
  obtain ⟨n, -, hruns⟩ := exists_runs m
  rw [hruns.getElem?_trace hs hl]
  constructor
  · intro h
    split at h
    · next hk =>
      obtain ⟨-, htick⟩ := hruns.running hs k hk
      rw [h0, Nat.zero_add] at htick
      obtain ⟨i, hrunning, hf, rfl⟩ := trace?_eq_some_iff.1 h
      exact ⟨i, hrunning, htick, hf, by rw [htick]⟩
    · cases h
  · rintro ⟨i, hrunning, htick, hf, rfl⟩
    rw [if_pos (hruns.lt_of_running hs hrunning (by omega)), trace?_eq_some_iff]
    exact ⟨i, hrunning, hf, by rw [htick]⟩

/-- There are as many records as there are before the first that is missing. -/
theorem length_trace (hbefore : ∀ k < n, ∃ e, m.trace[k]? = some e) (hend : m.trace[n]? = none) :
    m.trace.length = n := by
  have hle : m.trace.length ≤ n := List.getElem?_eq_none_iff.1 hend
  by_contra hne
  obtain ⟨e, he⟩ := hbefore m.trace.length (by omega)
  rw [List.getElem?_eq_none (Nat.le_refl _)] at he
  cases he

/-- An instruction that was decoded does not fail at the limit, and fails as its step does. -/
theorem exec_of_step_error {i : Instruction} {e : Fault} (hf : m.fetch = .ok i)
    (h : m.step.1 = .error e) : (m.exec i).1 = .error e ∧ e.family ≠ .tickLimit := by
  have hexec : (m.exec i).1 = .error e := by
    have hcycle := (act_of_step_error h).2
    rw [← cycle_eq_act, cycle, hf] at hcycle
    exact hcycle
  refine ⟨hexec, ?_⟩
  have hchannel : e.family.ofChannel → e.family ≠ .tickLimit := by
    intro hk hlimit
    rw [hlimit] at hk
    exact hk
  rcases exec_error (decode_of_fetch hf) hexec with ⟨a, -, rfl⟩ | ⟨dest, -, hread⟩ |
    ⟨source, v, -, -, hwrite⟩
  · simp [Fault.family]
  · exact hchannel (Channel.read_error hread)
  · exact hchannel (Channel.write_error hwrite)

/-- Where no instruction is fetched the step fails, at the limit or because there is none. -/
theorem step_of_fetch_error {e : Fault} (hs : m.status = .running) (hf : m.fetch = .error e) :
    m.step.1 = .error e ∧
      (e.family = .tickLimit ∨ Instruction.decode m.memory.cells m.ip = .error e) := by
  have hstep : m.step = (.error e, m.fail e) :=
    step_of_error hs (by rw [next_of_fetch_error hf]; rfl)
  refine ⟨by rw [hstep], ?_⟩
  unfold fetch at hf
  split at hf
  · cases hf
    exact .inl rfl
  · exact .inr hf

/-- **How many records there are.** A run that halts has one for each instruction that was counted. A
run that fails has one more exactly if its last step has decoded an instruction, which then fails. -/
theorem Runs.length_trace (h : Runs n m r) (hs : m.status = .running) (hl : m.lenient = false)
    (h0 : m.tick = 0) :
    let last := m.after r.2.tick
    r.1 = .ok .halted ∧ m.trace.length = r.2.tick ∨
      ∃ e, r.1 = .error e ∧ last.step = r ∧
        ((e.family = .tickLimit ∨ Instruction.decode last.memory.cells last.ip = .error e) ∧
            m.trace.length = r.2.tick ∨
          ∃ i, Instruction.decode last.memory.cells last.ip = .ok i ∧ (last.exec i).1 = .error e ∧
            e.family ≠ .tickLimit ∧ m.trace.length = r.2.tick + 1) := by
  intro last
  obtain ⟨j, rfl, hrunning, hlast⟩ := h.exists_last hs
  have hrecord : ∀ k < j + 1, m.trace[k]? = (m.after k).trace? := by
    intro k hk
    rw [h.getElem?_trace hs hl, if_pos hk]
  have hbefore : ∀ k < j, ∃ e, m.trace[k]? = some e := by
    intro k hk
    have htick := (h.running hs j (Nat.lt_succ_self j)).2
    have hstep := (after_running hrunning htick k hk).1
    obtain ⟨hs', -⟩ := step_running hstep
    rw [hrecord k (by omega)]
    exact trace?_of_step_ok hs' (s := .running) (by rw [hstep])
  -- the last step has a record or it has none
  have hrecorded : ∀ e, (m.after j).trace? = some e → m.trace.length = j + 1 := by
    intro e he
    refine length_trace ?_ (by rw [h.getElem?_trace hs hl, if_neg (by omega)])
    intro k hk
    rcases Nat.lt_succ_iff_lt_or_eq.1 hk with hk | rfl
    · exact hbefore k hk
    · exact ⟨e, by rw [hrecord k hk, he]⟩
  rcases h.ends hs with ⟨hok, -, htick⟩ | ⟨e, he, -, -, htick⟩
  · left
    obtain ⟨record, hrecord⟩ := trace?_of_step_ok hrunning (s := .halted) (by rw [hlast, hok])
    have hlen := hrecorded record hrecord
    exact ⟨hok, by omega⟩
  · right
    have hj : r.2.tick = j := by omega
    have hat : last = m.after j := by rw [← hj]
    rw [hj, hat]
    refine ⟨e, he, hlast, ?_⟩
    have hfails : (m.after j).step.1 = .error e := by rw [hlast, he]
    cases hf : (m.after j).fetch with
    | error cause =>
      left
      obtain ⟨hcause, hreason⟩ := step_of_fetch_error hrunning hf
      rw [hfails] at hcause
      cases hcause
      have hnone : m.trace[j]? = none := by
        rw [hrecord j (Nat.lt_succ_self j), trace?, hrunning, hf]
      exact ⟨hreason, length_trace hbefore hnone⟩
    | ok i =>
      right
      obtain ⟨hexec, hkind⟩ := exec_of_step_error hf hfails
      have hrecord := trace?_eq_some_iff.2 ⟨i, hrunning, hf, rfl⟩
      exact ⟨i, decode_of_fetch hf, hexec, hkind, hrecorded _ hrecord⟩

/-- A machine that goes on running has gone on behind the instruction, or where a jump has led it. -/
theorem step_pointer_of_running {m' : Machine} (h : m.step = (.ok .running, m')) :
    ∃ i, m.fetch = .ok i ∧ (m'.ip = m.ip + i.length ∨ m.Jumps m'.ip) := by
  obtain ⟨hs, -⟩ := step_running h
  obtain ⟨i, hf, hip | hjump | ⟨rfl, -⟩⟩ := step_pointer hs h
  · exact ⟨i, hf, .inl hip⟩
  · exact ⟨i, hf, .inr hjump⟩
  · -- a halt instruction does not leave the machine running
    have hstop : m.next = .stop := next_of_fetch hf
    have hstep : m.step = (.ok .halted, { m with status := .halted, tick := m.tick + 1 }) :=
      step_of_ok hs (by rw [hstop]; rfl)
    rw [hstep] at h
    cases h

/-- What the text of a record shows. -/
theorem message_decoded (tick : Nat) (ip : Int) (i : Instruction) :
    (Event.decoded .running tick ip i).message =
      "STATE: running  STEP: DECODE     TICK: " ++ Event.padLeft 6 (toString tick) ++ " IP: " ++
        Event.padLeft 5 (toString ip) ++ "\tINSTR: " ++ i.mnemonic := by
  rfl

/-- **The trace of a run is complete and in order.** Take a fresh machine that is not lenient, on any
channel and under any limit.

* Record `k` of its trace is there exactly if the machine has executed `k` instructions, is running and
  decodes another one then. It shows that the machine is running, the number `k`, the pointer after `k`
  steps and the instruction.
* There are as many records as instructions were counted if the run halts, if it fails at the limit,
  and if it fails because there is no instruction at the pointer. There is one more if it fails while
  it executes the instruction there.
* From a record to the next one the pointer moves on by the length of the instruction, unless that is a
  jump and is taken. -/
theorem run_trace (image : List Int) (channel : Channel) (L : Int) :
    let m := boot image channel L false
    let r := m.run
    let last := m.after r.2.tick
    (∀ k e, m.trace[k]? = some e ↔ ∃ i, (m.after k).status = .running ∧ (m.after k).tick = k ∧
      (m.after k).fetch = .ok i ∧ e = .decoded .running k (m.after k).ip i) ∧
    (∀ k text, (m.trace.map Event.message)[k]? = some text → ∃ i, (m.after k).fetch = .ok i ∧
      text = "STATE: running  STEP: DECODE     TICK: " ++ Event.padLeft 6 (toString k) ++ " IP: " ++
        Event.padLeft 5 (toString (m.after k).ip) ++ "\tINSTR: " ++ i.mnemonic) ∧
    (r.1 = .ok .halted ∧ m.trace.length = r.2.tick ∨
      ∃ e, r.1 = .error e ∧ last.step = r ∧
        ((e.family = .tickLimit ∨ Instruction.decode last.memory.cells last.ip = .error e) ∧
            m.trace.length = r.2.tick ∨
          ∃ i, Instruction.decode last.memory.cells last.ip = .ok i ∧ (last.exec i).1 = .error e ∧
            e.family ≠ .tickLimit ∧ m.trace.length = r.2.tick + 1)) ∧
    ∀ (k t t' : Nat) (s s' : Status) (ip ip' : Int) (i i' : Instruction),
      m.trace[k]? = some (.decoded s t ip i) → m.trace[k + 1]? = some (.decoded s' t' ip' i') →
      ip' = ip + i.length ∨ (m.after k).Jumps ip' := by
  intro m r last
  have hs : m.status = .running := rfl
  have hl : m.lenient = false := rfl
  have hrecord : ∀ k e, m.trace[k]? = some e ↔ ∃ i, (m.after k).status = .running ∧
      (m.after k).tick = k ∧ (m.after k).fetch = .ok i ∧ e = .decoded .running k (m.after k).ip i :=
    fun _ _ => getElem?_trace_eq_some_iff hs hl rfl
  refine ⟨hrecord, ?_, ?_, ?_⟩
  · intro k text htext
    rw [List.getElem?_map, Option.map_eq_some_iff] at htext
    obtain ⟨e, he, rfl⟩ := htext
    obtain ⟨i, -, -, hf, rfl⟩ := (hrecord k e).1 he
    exact ⟨i, hf, message_decoded k (m.after k).ip i⟩
  · obtain ⟨n, -, hruns⟩ := exists_runs m
    exact hruns.length_trace hs hl rfl
  · intro k t t' s s' ip ip' i i' hk hk'
    obtain ⟨_, -, -, hf, hi⟩ := (hrecord k _).1 hk
    obtain ⟨_, hnext, htick, -, hi'⟩ := (hrecord (k + 1) _).1 hk'
    cases hi
    cases hi'
    have hcount : (m.after (k + 1)).tick = m.tick + (k + 1) := by rw [htick]; exact (Nat.zero_add _).symm
    have hstep := (after_running hnext hcount k (Nat.lt_succ_self k)).1
    obtain ⟨j, hj, hpointer⟩ := step_pointer_of_running hstep
    rw [hf] at hj
    cases hj
    exact hpointer

-- a read that fails was decoded and is not counted
example : let m := boot [3, 0] (.queue (.ofInputs [])) 5 false
    m.trace.length = 1 ∧ m.run.2.tick = 0 := by decide

end Intcode.Machine
