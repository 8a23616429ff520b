import Intcode.Event
import Intcode.Files

/-!
# Program images

An image is written as words with commas between them, on the first line of a
file. The line as a whole may have blanks around it, its words may not.

* `Image.text`: the written form of an image.
-/

namespace Intcode

/-- Why an image is refused. -/
inductive ImageError where
  | empty
  | badWord (position : Nat) (cause : WordError)
  | fileNotFound (path : String)
  | fileUnreadable (path : String) (cause : FileError)
  deriving DecidableEq, Repr

/-- The text of an image error. -/
def ImageError.message : ImageError → String
  | empty => "empty program image"
  | badWord position cause => s!"bad integer at position {position}: " ++ cause.message
  | fileNotFound path => "Program file not found: " ++ path
  | fileUnreadable path cause => "Failed to read program file " ++ path ++ ": " ++ cause.message

/-- How the reading of an image ends without one. -/
inductive ImageFailure where
  /-- The image is refused. -/
  | refused (error : ImageError)
  /-- The file is no text. -/
  | notUtf8
  deriving DecidableEq, Repr

namespace Image

/-- Reads words, the first of which stands at `position`. -/
def parseWords : Nat → List (List Char) → Except ImageError (List Int)
  | _, [] => .ok []
  | position, token :: rest =>
    match Word.parse (String.ofList token) with
    | .error cause => .error (.badWord position cause)
    | .ok w => (parseWords (position + 1) rest).map (w :: ·)

/-- Reads an image from the text of its line. -/
def parse (text : List Char) : Except ImageError (List Int) :=
  let line := Text.trim text
  if line.isEmpty then .error .empty else parseWords 0 (line.splitOn ',')

/-- The written form of an image. -/
def text (words : List Int) : String := ",".intercalate (words.map toString)

/-- Reads an image from a file. -/
def load (fs : Files) (path : String) : Except ImageFailure (List Int) :=
  match fs.find? path with
  | none => .error (.refused (.fileNotFound path))
  | some .directory =>
    .error (.refused (.fileUnreadable path (.isADirectory (Path.parse path).text)))
  | some (.file octets) =>
    match firstLine? octets with
    | none => .error .notUtf8
    | some line => (parse line).mapError .refused

/-- What the reading of an image reports. -/
def loadEvents (fs : Files) (path : String) : List Event :=
  match load fs path with
  | .ok words => [.imageRead words.length (Path.parse path).text]
  | .error _ => []

end Image

end Intcode
