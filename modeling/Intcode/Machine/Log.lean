import Intcode.Machine

/-!
# The log of a machine

What a machine reports while it works. The log is a view of the run: it is worked
out from the machine before each step, and nothing in the run depends on it.
-/

namespace Intcode

/-- What a read from a channel reports: a terminal reports the value. -/
def Channel.readEvents (c : Channel) : List Event :=
  match c, c.read.1 with
  | .terminal _, .ok v => [.lineRead v]
  | _, _ => []

/-- What a write to a channel reports: a terminal reports the value. -/
def Channel.writeEvents (value : Int) : Channel → List Event
  | .terminal _ => [.lineWritten value]
  | _ => []

namespace Machine

/-- What a machine reports when it is loaded. -/
def bootEvents (m : Machine) : List Event := [.loaded m.memory.size]

/-- What the execution of an instruction reports. -/
def execEvents (m : Machine) : Instruction → List Event
  | .input _ => m.channel.readEvents
  | .output source =>
    match m.load source with
    | .ok v => m.channel.writeEvents v
    | .error _ => []
  | .halt => [.haltReached]
  | .binary .. | .jump .. => []

/-- The trace of an instruction, unless the machine is lenient. -/
def traceEvents (m : Machine) (i : Instruction) : List Event :=
  if m.lenient then [] else [.decoded m.status m.tick m.ip i]

/-- What a step reports. -/
def stepEvents (m : Machine) : List Event :=
  match m.status with
  | .running =>
    let work := match m.fetch with
      | .ok i => m.traceEvents i ++ m.execEvents i
      | .error _ => []
    match m.step.1 with
    | .ok _ => work
    | .error e => work ++ if e.writable then [.failed m.tick m.ip e] else []
  | _ => []

/-- What a run of at most `n` steps reports, after what was reported before. -/
def runEventsFor : Nat → Machine → Array Event → Array Event
  | 0, _, log => log
  | n + 1, m, log =>
    let log := log.appendList m.stepEvents
    match m.step with
    | (.ok .running, m') => runEventsFor n m' log
    | (.ok status, m') => log.push (.finished status m'.tick)
    | (.error _, _) => log

/-- What a run reports. -/
def runEvents (m : Machine) : List Event := (runEventsFor m.budget m #[]).toList

end Machine

end Intcode
