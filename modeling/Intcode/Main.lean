import Intcode.CommandLine.Run
import Intcode.Yaml.Reader

/-!
# The command

The outer layer of the command: it collects the files that a run follows and the
lines that the program asks for, and carries out the outcome. What the outcome is,
`CommandLine.execute` says.

Lines are asked for one by one, and what the program shows is passed on at once, so
that a person can answer it.
-/

namespace Intcode.CommandLine

/-- The host that the command runs on: it reads YAML, and its log takes every record. -/
def host : Host := { reader := Yaml.reader }

/-- What stands on the disk at a place. -/
def look (place : Place) : IO (Option Entry) := do
  try
    let path ← IO.FS.realPath place.text
    if ← path.isDir then return some .directory
    else return some (.file (← IO.FS.readBinFile path).toList)
  catch _ => return none

/-- The files on the disk on the way to the given paths. -/
def survey (paths : List String) : IO Files := do
  let mut entries := #[]
  for path in paths do
    let p := Path.parse path
    for n in List.range p.names.length do
      let place := Place.ofPath { p with names := p.names.take (n + 1) }
      if let some e ← look place then entries := entries.push (place, e)
  return ⟨entries.toList⟩

/-- The files on the disk that a run follows. Where the program is, the configuration may say. -/
def surveyFor (o : Options) : IO Files := do
  let known ← survey (consulted host.reader o ⟨[]⟩)
  survey (consulted host.reader o known)

/-- Is a line to be read next, and none there? -/
def awaitsLine (m : Machine) : Bool :=
  match m.fetch, m.channel with
  | .ok (.input _), .terminal t => t.unread.isEmpty
  | _, _ => false

/-- The machine with a text to read, on a terminal that has shown nothing yet. -/
def resume (m : Machine) (text : List Char) : Machine :=
  match m.channel with
  | .terminal t => { m with channel := .terminal { t with unread := t.unread ++ text, shown := "" } }
  | _ => m

/-- Runs a machine against the terminal, and gives all text that was read on the way. -/
partial def converse (input output : IO.FS.Stream) (m : Machine) (heard : String) : IO String := do
  let line ← if awaitsLine m then input.getLine else pure ""
  let (result, m') := (resume m (Text.unifyNewlines line.toList)).step
  unless m'.channel.shown.isEmpty do
    output.putStr m'.channel.shown
    output.flush
  match result with
  | .ok .running => converse input output m' (heard ++ line)
  | _ => return heard ++ line

/-- Shows the rest of an outcome, and writes the files that it changes. -/
def deliver (outcome : Outcome) (before : Files) (alreadyShown : Bool) : IO UInt32 := do
  unless alreadyShown do IO.print outcome.stdout
  IO.eprint outcome.stderr
  for (place, octets) in outcome.changed before do
    IO.FS.writeBinFile place.text ⟨octets.toArray⟩
  match outcome.status with
  | .ok status => return status.toUInt32
  | .error cause =>
    IO.eprintln cause.message
    return 1

/-- Carries the command out. -/
def perform (arguments : List String) : IO UInt32 := do
  match Options.parse arguments with
  | .error _ => deliver (execute host arguments ⟨[]⟩ []) ⟨[]⟩ false
  | .ok o =>
    let files ← surveyFor o
    match conversant? host.reader o files with
    | none => deliver (execute host arguments files []) files false
    | some m =>
      let heard ← converse (← IO.getStdin) (← IO.getStdout) m ""
      deliver (execute host arguments files heard.toList) files true

end Intcode.CommandLine

def main (arguments : List String) : IO UInt32 := Intcode.CommandLine.perform arguments
