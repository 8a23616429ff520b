import Intcode.Fault
import Intcode.Text.Lines

/-!
# Terminals

The channel of an interactive run: one number a line. A read shows the prompt,
takes a whole line and reads a word from it, blanks around it aside; the line is
gone even if it is no word. A write shows the number on a line of its own, or nothing
at all if the number is too long to be written.
-/

namespace Intcode

/-- Text still to be read, and text shown so far. -/
structure Terminal where
  unread : List Char
  prompt : String := ""
  shown : String := ""
  deriving DecidableEq, Repr

namespace Terminal

/-- The word on a line. -/
def readLine (line : List Char) : Except Fault Int :=
  match Word.parse (String.ofList (Text.trim line)) with
  | .ok v => .ok v
  | .error cause => .error (.badLine cause)

/-- Shows the prompt and takes a line. -/
def read (t : Terminal) : Except Fault Int × Terminal :=
  let result := if t.unread = [] then .error .endOfStream else readLine (Text.takeLine t.unread)
  (result, { t with unread := Text.dropLine t.unread, shown := t.shown ++ t.prompt })

/-- Shows a number on a line of its own, if it can be written. -/
def write (t : Terminal) (value : Int) : Except Fault Unit × Terminal :=
  if Numeral.writable value then (.ok (), { t with shown := t.shown ++ toString value ++ "\n" })
  else (.error (.lineTooLong value), t)

end Terminal

end Intcode
