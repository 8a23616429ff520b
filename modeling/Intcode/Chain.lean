import Intcode.Machine.Log

/-!
# Chains of machines

Several machines in series run copies of one program. Each is given its phase and
the signal of the one before it, the first one a signal of zero, and passes on the
first value it writes. Later values are ignored.

* `Chain.run`: the signal that leaves the last stage, or the fault of the first
  stage that fails.
-/

namespace Intcode

/-- The program that all stages run, and the limit on each of their runs. -/
structure Chain where
  program : List Int
  tickLimit : Int
  deriving DecidableEq, Repr

namespace Chain

/-- The machine of a stage. -/
def stageMachine (c : Chain) (phase signal : Int) : Machine :=
  .boot c.program (.queue (.ofInputs [phase, signal])) c.tickLimit true

/-- The first value that a machine has written to its queue. -/
def firstOutput? (m : Machine) : Option Int :=
  match m.channel with
  | .queue q => q.outputs[0]?
  | _ => none

/-- Runs a stage: the first value it wrote. -/
def runStage (c : Chain) (stage phase signal : Int) : Except Fault Int :=
  match (c.stageMachine phase signal).run with
  | (.ok _, m) =>
    match firstOutput? m with
    | some v => .ok v
    | none => .error (.silentStage stage phase)
  | (.error e, _) => .error e

/-- Feeds a signal through the stages from number `stage` on. -/
def feed (c : Chain) : Nat → Int → List Int → Except Fault Int
  | _, signal, [] => .ok signal
  | stage, signal, phase :: phases =>
    match c.runStage stage phase signal with
    | .ok signal' => feed c (stage + 1) signal' phases
    | .error e => .error e

/-- Refuses a list of phases that is too short for a chain. -/
def checkPhases (phases : List Int) : Except Fault Unit :=
  if phases.length < 2 then .error (.tooFewPhases phases.length) else .ok ()

/-- Runs a chain with one stage for each phase. -/
def run (c : Chain) (phases : List Int) : Except Fault Int := do
  checkPhases phases
  c.feed 0 0 phases

/-- What a stage passes on is what its machine wrote first, if it halted. -/
theorem runStage_eq_ok_iff {c : Chain} {stage phase signal v : Int} :
    c.runStage stage phase signal = .ok v ↔
      (∃ status, (c.stageMachine phase signal).run.1 = .ok status) ∧
        firstOutput? (c.stageMachine phase signal).run.2 = some v := by
  unfold runStage
  cases (c.stageMachine phase signal).run with
  | mk r m =>
    cases r with
    | error e => simp
    | ok status =>
      cases hf : firstOutput? m with
      | none => simp [hf]
      | some w => simp [hf]

/-- A signal passes a stage and then the others. -/
theorem feed_cons_eq_ok_iff {c : Chain} {stage : Nat} {signal phase s : Int} {phases : List Int} :
    c.feed stage signal (phase :: phases) = .ok s ↔
      ∃ signal', c.runStage stage phase signal = .ok signal' ∧
        c.feed (stage + 1) signal' phases = .ok s := by
  rw [feed]
  cases c.runStage stage phase signal <;> simp

/-- A chain of two stages or more gives the signal that has passed them all. -/
theorem run_eq_ok_iff {c : Chain} {phases : List Int} {s : Int} :
    c.run phases = .ok s ↔ 2 ≤ phases.length ∧ c.feed 0 0 phases = .ok s := by
  unfold run checkPhases
  by_cases h : phases.length < 2
  · have hn : ¬ 2 ≤ phases.length := by omega
    simp [h, hn, bind, Except.bind]
  · have hn : 2 ≤ phases.length := by omega
    simp [h, hn, bind, Except.bind]

/-! ## What a chain reports -/

/-- What a stage reports. -/
def stageEvents (c : Chain) (stage phase signal : Int) : List Event :=
  let m := c.stageMachine phase signal
  let returned := match m.run with
    | (.ok _, m') =>
      match firstOutput? m' with
      | some v => [.stageReturned stage phase signal v m'.tick]
      | none => []
    | (.error _, _) => []
  m.bootEvents ++ m.runEvents ++ returned

/-- What the stages from number `stage` on report. -/
def feedEvents (c : Chain) : Nat → Int → List Int → List Event
  | _, _, [] => []
  | stage, signal, phase :: phases =>
    c.stageEvents stage phase signal ++
      match c.runStage stage phase signal with
      | .ok signal' => feedEvents c (stage + 1) signal' phases
      | .error _ => []

/-- What a run of the chain reports. -/
def runEvents (c : Chain) (phases : List Int) : List Event :=
  match checkPhases phases with
  | .ok _ => c.feedEvents 0 0 phases
  | .error _ => []

end Chain

end Intcode
