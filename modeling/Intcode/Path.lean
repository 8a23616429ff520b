/-!
# Paths

A path is a list of names below the working directory or below the root. Empty
names and single dots say nothing and are dropped; double dots are kept, since
what they mean depends on the files.
-/

namespace Intcode

/-- The names of a path, and the root in front of them if it has one. -/
structure Path where
  root : String
  names : List String
  deriving DecidableEq, Repr

namespace Path

/-- The root of a written path. Two slashes are a root of their own, three or more are one. -/
def rootOf : List Char → String
  | '/' :: '/' :: '/' :: _ => "/"
  | '/' :: '/' :: _ => "//"
  | '/' :: _ => "/"
  | _ => ""

/-- Reads a path. -/
def parse (s : String) : Path where
  root := rootOf s.toList
  names := ((s.toList.splitOn '/').map String.ofList).filter fun n => n ≠ "" && n ≠ "."

/-- The normalised text of a path. The path without names is the working directory. -/
def text (p : Path) : String :=
  if p.root = "" && p.names.isEmpty then "." else p.root ++ "/".intercalate p.names

end Path

/-- Where the names of a place start. -/
inductive Anchor where
  /-- At the root. -/
  | root
  /-- At the directory that many levels above the working directory. -/
  | above (levels : Nat)
  deriving DecidableEq, Repr

/-- A place in the files. -/
structure Place where
  anchor : Anchor := .above 0
  names : List String
  deriving DecidableEq, Repr

namespace Place

/-- The place of a name in the directory at a place. -/
def child (place : Place) (name : String) : Place := { place with names := place.names ++ [name] }

/-- The place one level up. Above the root there is nothing but the root. -/
def up : Place → Place
  | ⟨.above n, []⟩ => ⟨.above (n + 1), []⟩
  | ⟨anchor, names⟩ => ⟨anchor, names.dropLast⟩

/-- Where a path starts. -/
def start (p : Path) : Place := ⟨if p.root = "" then .above 0 else .root, []⟩

/-- Where a path leads if double dots are resolved without a look at the files. -/
def ofPath (p : Path) : Place :=
  p.names.foldl (fun place n => if n = ".." then place.up else place.child n) (start p)

/-- Does a place lie in the directory at another one, at whatever depth, or is it that directory? -/
def within (place directory : Place) : Bool :=
  place.anchor = directory.anchor && directory.names.isPrefixOf place.names

/-- The text of a place. -/
def text : Place → String
  | ⟨.root, names⟩ => "/" ++ "/".intercalate names
  | ⟨.above 0, []⟩ => "."
  | ⟨.above n, names⟩ => "/".intercalate (List.replicate n ".." ++ names)

end Place

end Intcode
