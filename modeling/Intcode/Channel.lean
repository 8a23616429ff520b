import Intcode.Channel.Queue
import Intcode.Channel.Fixture
import Intcode.Channel.Terminal

/-!
# Channels

What a machine reads its input from and writes its output to: a queue, a fixture
or a terminal. A read may change the channel even if it fails; a write that fails
leaves it as it was.
-/

namespace Intcode

/-- The input and output of a machine. -/
inductive Channel where
  | queue (queue : Queue)
  | fixture (fixture : Fixture)
  | terminal (terminal : Terminal)
  deriving DecidableEq, Repr

namespace Channel

/-- Reads a value: the value or the fault, and the channel after the attempt. -/
def read : Channel → Except Fault Int × Channel
  | queue q => (q.read.1, .queue q.read.2)
  | fixture f => (f.read.1, .fixture f.read.2)
  | terminal t => (t.read.1, .terminal t.read.2)

/-- Writes a value: the fault if it is refused, and the channel after the attempt. -/
def write (value : Int) : Channel → Except Fault Unit × Channel
  | queue q => (.ok (), .queue (q.write value))
  | fixture f => ((f.write value).1, .fixture (f.write value).2)
  | terminal t => ((t.write value).1, .terminal (t.write value).2)

/-- Adds a value for a later read. Only a queue takes one. -/
def push (value : Int) : Channel → Channel
  | queue q => .queue (q.push value)
  | other => other

/-- Checks that a fixture is used up. Other channels have nothing to check. -/
def finish : Channel → Except Fault Unit
  | fixture f => f.finish
  | _ => .ok ()

/-- What a terminal has shown. Other channels show nothing. -/
def shown : Channel → String
  | terminal t => t.shown
  | _ => ""

/-- What is still to be read on a terminal. Other channels have no text. -/
def unread : Channel → List Char
  | terminal t => t.unread
  | _ => []

end Channel

end Intcode
