import Intcode.Arrangement
import Intcode.Chain

/-!
# The best order of phases

A search runs a chain on every order of a pool of phases and keeps the best
signal. Of orders with the same signal the first one is kept; an order on which
the chain fails ends the search.
-/

namespace Intcode.Chain

/-- A signal with the order of phases that gives it. -/
structure Finding where
  signal : Int
  phases : List Int
  deriving DecidableEq, Repr

/-- The better of what was found so far and a new finding; the old one is kept on a tie. -/
def better : Option Finding → Finding → Finding
  | none, new => new
  | some old, new => if new.signal > old.signal then new else old

/-- Runs the chain on an order and keeps what is better. -/
def tryOrder (c : Chain) (best : Option Finding) (order : List Int) :
    Except Fault (Option Finding) :=
  match c.run order with
  | .ok signal => .ok (some (better best ⟨signal, order⟩))
  | .error e => .error e

/-- The best signal over all orders of the pool, and the first order that gives it. -/
def search (c : Chain) (pool : List Int) : Except Fault Finding := do
  checkPhases pool
  match ← visit c.tryOrder pool none with
  | some finding => return finding
  | none => throw (.tooFewPhases pool.length)

/-- Adds what the chain reports on an order, and stops where the chain fails. -/
def logOrder (c : Chain) (log : Array Event) (order : List Int) :
    Except (Array Event) (Array Event) :=
  let log := log.appendList (c.runEvents order)
  match c.run order with
  | .ok _ => .ok log
  | .error _ => .error log

/-- What a search reports. -/
def searchEvents (c : Chain) (pool : List Int) : List Event :=
  match checkPhases pool with
  | .error _ => []
  | .ok _ =>
    match visit c.logOrder pool #[], c.search pool with
    | .ok log, .ok best => log.toList ++ [.bestFound best.signal best.phases]
    | .ok log, .error _ => log.toList
    | .error log, _ => log.toList

end Intcode.Chain
