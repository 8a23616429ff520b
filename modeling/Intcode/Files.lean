import Intcode.Path
import Intcode.Text.Lines
import Intcode.Text.Quoted
import Intcode.Text.Utf8

/-!
# Files

The files that a run knows of, as it finds and leaves them. A look-up follows a
path name by name, so that double dots lead up only from a directory that exists.

Files are those that keep what is written to them: devices are not among them, and
how long a name may be is a matter of the host.
-/

namespace Intcode

/-- What stands at a place. -/
inductive Entry where
  | file (octets : List UInt8)
  | directory
  deriving DecidableEq, Repr

/-- The files that a run knows of. Directories above a file need no entry. -/
structure Files where
  entries : List (Place × Entry)
  deriving DecidableEq, Repr

/-- Why a file cannot be opened. -/
inductive FileError where
  | notFound (path : String)
  | notADirectory (path : String)
  | isADirectory (path : String)
  deriving DecidableEq, Repr

/-- The text of a file error. -/
def FileError.message : FileError → String
  | notFound path => "[Errno 2] No such file or directory: " ++ Text.quoted path
  | notADirectory path => "[Errno 20] Not a directory: " ++ Text.quoted path
  | isADirectory path => "[Errno 21] Is a directory: " ++ Text.quoted path

namespace Files

/-- What stands at a place. The root, the working directory and those above it always exist. -/
def entry? (fs : Files) (place : Place) : Option Entry :=
  if place.names = [] then some .directory
  else
    match fs.entries.find? (·.1 = place) with
    | some (_, e) => some e
    | none => if fs.entries.any (·.1.within place) then some .directory else none

/-- The place after one more name of a path. -/
def follow (fs : Files) (place : Place) (name : String) : Option Place :=
  if fs.entry? place ≠ some .directory then none
  else if name = ".." then some place.up
  else if (fs.entry? (place.child name)).isSome then some (place.child name)
  else none

/-- What a path leads to. A path that holds the null character leads nowhere. -/
def find? (fs : Files) (path : String) : Option Entry :=
  if path.toList.contains '\x00' then none
  else
    let p := Path.parse path
    (p.names.foldlM fs.follow (Place.start p)).bind fs.entry?

/-- Puts a file at a place, instead of what stands there. -/
def put (fs : Files) (place : Place) (octets : List UInt8) : Files :=
  if fs.entries.any (·.1 = place) then
    ⟨fs.entries.map fun e => if e.1 = place then (place, .file octets) else e⟩
  else ⟨fs.entries ++ [(place, .file octets)]⟩

/-- Takes away what stands at a place. -/
def erase (fs : Files) (place : Place) : Files := ⟨fs.entries.filter (·.1 ≠ place)⟩

/-- Is there a file on the way to a place? -/
def blocked (fs : Files) (place : Place) : Bool :=
  fs.entries.any fun e => e.2 ≠ .directory && e.1 ≠ place && place.within e.1

/-- Can a file be created at a place, or an old one be replaced? -/
def checkWritable (fs : Files) (place : Place) : Except FileError Unit :=
  if fs.entry? place = some .directory then .error (.isADirectory place.text)
  else if fs.blocked place then .error (.notADirectory place.text)
  else if (fs.entry? place.up).isNone then .error (.notFound place.text)
  else .ok ()

/-- The files that are not in `before` or differ from what is there, in the order of the entries. -/
def changedSince (fs before : Files) : List (Place × List UInt8) :=
  fs.entries.filterMap fun e =>
    match e.2 with
    | .file octets => if before.entry? e.1 = some e.2 then none else some (e.1, octets)
    | .directory => none

end Files

/-! ## Text of files -/

/-- Files are read in blocks of this many octets. -/
def blockSize : Nat := 8192

/-- The part of a text whose line ends are known: a carriage return at its end may yet be followed
by a line feed. -/
def settled (s : List Char) : List Char :=
  if s.getLast? = some '\r' then s.dropLast else s

/-- Reads the first line block by block: `held` is what was read before. No block is read after the
line has ended, so what is no text there does no harm. -/
def firstLineFrom (st : Text.Utf8.State) (held : List Char) (octets : List Nat) : Option (List Char) :=
  if _h : octets = [] then
    if st = .between then some (Text.takeLine (Text.unifyNewlines held)) else none
  else
    match Text.Utf8.scan st (octets.take blockSize) with
    | none => none
    | some (cs, st') =>
      let text := held ++ cs
      let known := settled text
      if known.any fun c => c = '\n' || c = '\r' then
        some (Text.takeLine (Text.unifyNewlines known))
      else firstLineFrom st' text (octets.drop blockSize)
termination_by octets.length
decreasing_by
  have : 0 < octets.length := List.length_pos_iff.2 (by assumption)
  simp only [List.length_drop, blockSize]
  omega

/-- The first line of a file, its newline unified. -/
def firstLine? (octets : List UInt8) : Option (List Char) :=
  firstLineFrom .between [] (octets.map UInt8.toNat)

end Intcode
