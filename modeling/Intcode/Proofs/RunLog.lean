import Intcode.Machine.Log
import Intcode.Proofs.Run

/-!
# The log of a run

The log of a run is what the machine reports when it is loaded, then what its steps
report, and one record more if the run does not fail. A lenient machine leaves the
trace of its instructions out of its log, and nothing else changes: it takes the same
steps, and reports all the rest in the same order.

* `Event.isTrace_iff_message`: the trace can be told by its text.
* `Runs.runEvents_eq`: what a run reports is what its steps report.
* `step_muted`, `stepEvents_muted`: to mute a machine changes no step, and takes the
  trace off what a step reports.
* `run_lenient`: the run of a lenient machine beside that of another one.
-/

namespace Intcode

namespace Event

theorem prefix_message (status : Status) (tick : Nat) (pointer : Int) (i : Instruction) :
    "STATE: ".toList <+: (decoded status tick pointer i).message.toList := by
  unfold message
  simp only [String.toList_append, List.append_assoc]
  exact List.prefix_append _ _

/-- The first letter of any other text is another one. -/
theorem exists_head {e : Event} (h : e.isTrace = false) :
    ∃ c, e.message.toList.head? = some c ∧ c ≠ 'S' := by
  cases e with
  | decoded => cases h
  | _ =>
    unfold message
    simp only [String.toList_append, List.head?_append]
    exact ⟨_, rfl, by decide⟩

/-- **The trace can be told by its text.** -/
theorem isTrace_iff_message (e : Event) :
    e.isTrace = true ↔ "STATE: ".toList <+: e.message.toList := by
  constructor
  · intro h
    cases e with
    | decoded status tick pointer i => exact prefix_message status tick pointer i
    | _ => cases h
  · intro h
    cases htrace : e.isTrace with
    | true => rfl
    | false =>
      obtain ⟨c, hc, hne⟩ := exists_head htrace
      obtain ⟨rest, hrest⟩ := h
      have hS : e.message.toList.head? = some 'S' := by
        rw [← hrest]
        rfl
      rw [hc] at hS
      exact absurd (Option.some.inj hS) hne

end Event

namespace Machine

/-- What a run reports, from the loading of the machine on. -/
def log (m : Machine) : List Event := m.bootEvents ++ m.runEvents

/-- What `n` steps report. -/
def stepsEvents : Nat → Machine → List Event
  | 0, _ => []
  | n + 1, m => m.stepEvents ++ stepsEvents n m.step.2

/-- What a run reports at its end, unless it fails. -/
def endEvents : Except Fault Status × Machine → List Event
  | (.ok status, m) => [.finished status m.tick]
  | (.error _, _) => []

variable {m : Machine} {n : Nat} {r : Except Fault Status × Machine}

theorem Runs.runEventsFor_eq (h : Runs n m r) {fuel : Nat} (hn : n ≤ fuel) (log : Array Event) :
    (runEventsFor fuel m log).toList = log.toList ++ (m.stepsEvents n ++ endEvents r) := by
  induction h generalizing fuel log with
  | @last m r hm hr =>
    obtain ⟨fuel, rfl⟩ : ∃ f, fuel = f + 1 := ⟨fuel - 1, by omega⟩
    obtain ⟨answer, m'⟩ := r
    simp only [runEventsFor, hm]
    cases answer with
    | error e => simp [stepsEvents, endEvents]
    | ok status =>
      cases status with
      | running => exact absurd rfl hr
      | halted => simp [stepsEvents, endEvents]
      | errored => simp [stepsEvents, endEvents]
  | @more n m m' r hm _ ih =>
    obtain ⟨fuel, rfl⟩ : ∃ f, fuel = f + 1 := ⟨fuel - 1, by omega⟩
    have hrest := ih (Nat.le_of_succ_le_succ hn) (log.appendList m.stepEvents)
    simp only [runEventsFor, hm, hrest, stepsEvents]
    simp

/-- **What a run reports is what its steps report**, and how it ended unless it failed. -/
theorem Runs.runEvents_eq (h : Runs n m r) : m.runEvents = m.stepsEvents n ++ endEvents r := by
  obtain ⟨k, hk, hruns⟩ := exists_runs m
  obtain ⟨rfl, -⟩ := h.unique hruns
  have heq : m.runEvents = _ := h.runEventsFor_eq hk #[]
  rw [heq]
  rfl

/-- The trace of the next step, if the step decodes an instruction. -/
def trace? (m : Machine) : Option Event :=
  match m.status, m.fetch with
  | .running, .ok i => some (.decoded .running m.tick m.ip i)
  | _, _ => none

/-- What the next step reports besides its trace. -/
def remarks (m : Machine) : List Event :=
  match m.status with
  | .running =>
    (match m.fetch with
      | .ok i => m.execEvents i
      | .error _ => []) ++
    match m.step.1 with
      | .ok _ => []
      | .error e => if e.writable then [.failed m.tick m.ip e] else []
  | _ => []

/-- **A step reports its trace, unless the machine is lenient, and then the rest.** -/
theorem stepEvents_eq (m : Machine) :
    m.stepEvents = (if m.lenient then [] else m.trace?.toList) ++ m.remarks := by
  unfold stepEvents trace? remarks traceEvents
  cases hs : m.status with
  | running =>
    cases m.fetch with
    | error cause => cases m.step.1 <;> cases m.lenient <;> simp
    | ok i => cases m.step.1 <;> cases m.lenient <;> simp
  | halted => cases m.lenient <;> rfl
  | errored => cases m.lenient <;> rfl

theorem isTrace_of_mem_trace? {e : Event} (h : e ∈ m.trace?.toList) : e.isTrace = true := by
  unfold trace? at h
  split at h
  · cases List.mem_singleton.1 h
    rfl
  · cases h

/-- What the execution of an instruction can report. -/
theorem mem_execEvents {i : Instruction} {e : Event} (h : e ∈ m.execEvents i) :
    (∃ v, e = .lineRead v) ∨ (∃ v, e = .lineWritten v) ∨ e = .haltReached := by
  unfold execEvents at h
  split at h
  · unfold Channel.readEvents at h
    split at h
    · exact .inl ⟨_, List.mem_singleton.1 h⟩
    · cases h
  · split at h
    · unfold Channel.writeEvents at h
      split at h
      · exact .inr (.inl ⟨_, List.mem_singleton.1 h⟩)
      · cases h
    · cases h
  · exact .inr (.inr (List.mem_singleton.1 h))
  · cases h
  · cases h

/-- What a step can report besides its trace. -/
theorem mem_remarks {e : Event} (h : e ∈ m.remarks) :
    (∃ i, e ∈ m.execEvents i) ∨ ∃ cause, e = .failed m.tick m.ip cause := by
  unfold remarks at h
  split at h
  · rcases List.mem_append.1 h with h | h
    · split at h
      · exact .inl ⟨_, h⟩
      · cases h
    · split at h
      · cases h
      · split at h
        · exact .inr ⟨_, List.mem_singleton.1 h⟩
        · cases h
  · cases h

theorem isTrace_of_mem_remarks {e : Event} (h : e ∈ m.remarks) : e.isTrace = false := by
  rcases mem_remarks h with ⟨i, hi⟩ | ⟨cause, rfl⟩
  · rcases mem_execEvents hi with ⟨v, rfl⟩ | ⟨v, rfl⟩ | rfl <;> rfl
  · rfl

/-- What is left of the report of a step without its trace. -/
theorem filter_not_isTrace_stepEvents (m : Machine) :
    m.stepEvents.filter (fun e => !e.isTrace) = m.remarks := by
  have hrest : m.remarks.filter (fun e => !e.isTrace) = m.remarks := by
    rw [List.filter_eq_self]
    intro e he
    rw [isTrace_of_mem_remarks he]
    rfl
  have htrace : m.trace?.toList.filter (fun e => !e.isTrace) = [] := by
    rw [List.filter_eq_nil_iff]
    intro e he
    rw [isTrace_of_mem_trace? he]
    simp
  rw [stepEvents_eq, List.filter_append, hrest]
  cases m.lenient with
  | true => rfl
  | false => simp [htrace]

/-- The trace in the report of a step. -/
theorem filter_isTrace_stepEvents (h : m.lenient = false) :
    m.stepEvents.filter Event.isTrace = m.trace?.toList := by
  have hrest : m.remarks.filter Event.isTrace = [] := by
    rw [List.filter_eq_nil_iff]
    intro e he
    rw [isTrace_of_mem_remarks he]
    simp
  have htrace : m.trace?.toList.filter Event.isTrace = m.trace?.toList := by
    rw [List.filter_eq_self]
    intro e he
    exact isTrace_of_mem_trace? he
  rw [stepEvents_eq, List.filter_append, hrest, h]
  simp [htrace]

/-! ## Lenient machines -/

/-- The machine as a lenient one. -/
def muted (m : Machine) : Machine := { m with lenient := true }

theorem act_muted (m : Machine) (a : Action) :
    m.muted.act a = ((m.act a).1, (m.act a).2.muted) := by
  have hact : m.muted.act a = _ := act_bookkeeping m m.tick m.tickLimit true a
  rw [hact, ← act_tick m a, ← act_tickLimit m a]
  rfl

/-- **To mute a machine changes no step.** -/
theorem step_muted (m : Machine) : m.muted.step = (m.step.1, m.step.2.muted) := by
  have haside : Aside muted := ⟨fun _ => rfl, fun _ => rfl, fun _ _ => rfl⟩
  have hnext : m.muted.next = m.next := rfl
  refine step_commutes haside ?_
  rw [hnext]
  exact act_muted m m.next

theorem remarks_muted (m : Machine) : m.muted.remarks = m.remarks := by
  have hfetch : m.muted.fetch = m.fetch := rfl
  have hstep : m.muted.step.1 = m.step.1 := by rw [step_muted]
  have hexec : ∀ i, m.muted.execEvents i = m.execEvents i := fun _ => rfl
  unfold remarks
  rw [hfetch, hstep]
  simp only [hexec]
  rfl

/-- **To mute a machine takes the trace off what a step reports.** -/
theorem stepEvents_muted (m : Machine) :
    m.muted.stepEvents = m.stepEvents.filter fun e => !e.isTrace := by
  rw [filter_not_isTrace_stepEvents, ← remarks_muted, stepEvents_eq]
  rfl

theorem stepsEvents_muted (m : Machine) (n : Nat) :
    m.muted.stepsEvents n = (m.stepsEvents n).filter fun e => !e.isTrace := by
  induction n generalizing m with
  | zero => rfl
  | succ n ih => rw [stepsEvents, stepsEvents, List.filter_append, stepEvents_muted, step_muted, ih]

/-- **The log of a lenient machine** is that of another one without the trace. -/
theorem log_muted (m : Machine) : m.muted.log = m.log.filter fun e => !e.isTrace := by
  obtain ⟨n, -, hruns⟩ := exists_runs m
  have hruns' : Runs n m.muted (m.run.1, m.run.2.muted) := hruns.commutes fun _ _ => step_muted _
  have hboot : m.muted.bootEvents = m.bootEvents.filter fun e => !e.isTrace := rfl
  have hend : endEvents (m.run.1, m.run.2.muted) = (endEvents m.run).filter fun e => !e.isTrace := by
    obtain ⟨answer, m'⟩ := m.run
    cases answer <;> rfl
  rw [log, log, hruns.runEvents_eq, hruns'.runEvents_eq, stepsEvents_muted, hboot, hend,
    List.filter_append, List.filter_append]

/-- **Leniency takes the trace off the log, and changes nothing else.** Run the same image on the same
channel under the same limit, with a lenient machine and with one that is not. At every step, and at the
end, all that tells one machine from the other is that it is lenient, and the runs give the same result
or fail for the same cause. The log of the lenient machine is that of the other without the records of
the trace; in the text of the log these are the lines that begin like a trace. -/
theorem run_lenient (image : List Int) (channel : Channel) (L : Int) :
    let m := boot image channel L false
    let m' := boot image channel L true
    m'.run.1 = m.run.1 ∧ m'.run.2 = { m.run.2 with lenient := true } ∧
      (∀ n, m'.after n = { m.after n with lenient := true }) ∧
      m'.log = m.log.filter (fun e => !e.isTrace) ∧
      m'.log.map Event.message =
        (m.log.map Event.message).filter fun text => ¬ "STATE: ".toList <+: text.toList := by
  intro m m'
  have hrun : m'.run = (m.run.1, m.run.2.muted) := run_commutes step_muted m
  have hlog : m'.log = m.log.filter fun e => !e.isTrace := log_muted m
  refine ⟨by rw [hrun], by rw [hrun]; rfl, after_commutes step_muted m, hlog, ?_⟩
  rw [hlog, List.filter_map]
  congr 1
  apply List.filter_congr
  intro e _
  have htext := e.isTrace_iff_message
  cases htrace : e.isTrace with
  | true =>
    have hhead := htext.1 htrace
    exact (decide_eq_false (not_not_intro hhead)).symm
  | false =>
    have hhead : ¬ "STATE: ".toList <+: e.message.toList := by
      rw [← htext, htrace]
      simp
    exact (decide_eq_true hhead).symm

end Machine

end Intcode
