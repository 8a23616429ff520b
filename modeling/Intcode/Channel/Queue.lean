import Intcode.Fault

/-!
# Queues

The channel that joins machines in memory: values wait in order of arrival, and
what is written is collected in order.

* `Queue.outputs_read`: a read leaves what was collected.
-/

namespace Intcode

/-- Values that wait to be read, and values that were written. -/
structure Queue where
  pending : List Int := []
  outputs : Array Int := #[]
  deriving DecidableEq, Repr

namespace Queue

/-- A queue on which the given values wait and nothing was written. -/
def ofInputs (inputs : List Int) : Queue := { pending := inputs }

/-- Adds a value behind those that wait. -/
def push (q : Queue) (value : Int) : Queue := { q with pending := q.pending ++ [value] }

/-- Takes the value that has waited longest. -/
def read (q : Queue) : Except Fault Int × Queue :=
  match q.pending with
  | [] => (.error .queueEmpty, q)
  | v :: rest => (.ok v, { q with pending := rest })

/-- Collects a value. -/
def write (q : Queue) (value : Int) : Queue := { q with outputs := q.outputs.push value }

/-- A read leaves what was collected. -/
theorem outputs_read (q : Queue) : q.read.2.outputs = q.outputs := by
  unfold read
  split <;> rfl

end Queue

end Intcode
