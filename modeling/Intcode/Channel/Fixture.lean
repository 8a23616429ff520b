import Intcode.Fault

/-!
# Fixtures

The channel of a rehearsed run: the input is fixed, and the output is compared,
value by value, with what is expected. A value that is not the next one expected
is refused, and counts for nothing.
-/

namespace Intcode

/-- Fixed input with the output it should produce, and how far a run has come in both. -/
structure Fixture where
  inputs : Array Int
  expected : Array Int := #[]
  readCount : Nat := 0
  writeCount : Nat := 0
  deriving DecidableEq, Repr

namespace Fixture

/-- A fixture of which nothing was read or written. -/
def ofLists (inputs expected : List Int) : Fixture :=
  { inputs := inputs.toArray, expected := expected.toArray }

/-- Takes the next value of the input. -/
def read (f : Fixture) : Except Fault Int × Fixture :=
  match f.inputs[f.readCount]? with
  | some v => (.ok v, { f with readCount := f.readCount + 1 })
  | none => (.error (.fixtureDrained f.inputs.size), f)

/-- Accepts the next expected value, and refuses any other. -/
def write (f : Fixture) (value : Int) : Except Fault Unit × Fixture :=
  match f.expected[f.writeCount]? with
  | some v =>
    if value = v then (.ok (), { f with writeCount := f.writeCount + 1 })
    else (.error (.wrongOutput f.writeCount v value), f)
  | none => (.error (.unexpectedOutput value f.expected.size), f)

/-- Checks that all input was read and then that all output was produced. -/
def finish (f : Fixture) : Except Fault Unit :=
  if f.readCount ≠ f.inputs.size then .error (.inputUnread f.readCount f.inputs.size)
  else if f.writeCount ≠ f.expected.size then .error (.outputMissing f.writeCount f.expected.size)
  else .ok ()

end Fixture

end Intcode
