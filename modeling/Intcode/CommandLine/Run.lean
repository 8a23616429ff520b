import Intcode.Chain.Search
import Intcode.CommandLine.Usage
import Intcode.Config.Source
import Intcode.Image

/-!
# Running the command

What the command does with its arguments, the files and the terminal, as a
function: how it ends, what it shows, and the text and the files as it leaves them.
Two things are left to its host: to read the text of a configuration, and to take
records for the log.

The log file is emptied as soon as the arguments are read, before any other file
is. Without `--debug` only errors are logged. A record that the log does not take is
reported where complaints are.

* `CommandLine.execute`: the outcome of the command.
-/

namespace Intcode.CommandLine

/-- A record for the log. -/
structure Record where
  event : Event
  /-- What is shown for it, if the log did not take it. -/
  refusal? : Option String

/-- What the command relies on besides its files. -/
structure Host where
  /-- What reads the text of configurations. -/
  reader : Config.Reader
  /-- What is shown for an event that the log at a place does not take, though it could be opened: the
  device is full, or the text of the event cannot be encoded. It may depend on the records before,
  which come with the last one first. -/
  refusal? : Place → List Record → Event → Option String := fun _ _ _ => none

/-- Why the command ends without a status. -/
inductive Crash where
  /-- The log file cannot be opened. -/
  | logfile (cause : FileError)
  /-- The option for the log file is given without a value. -/
  | noLogfile
  | config (cause : ConfigFailure)
  | image (cause : ImageFailure)
  /-- What came out cannot be written. -/
  | conversion (cause : ConversionError)
  deriving DecidableEq, Repr

/-- The text of a crash. -/
def Crash.message : Crash → String
  | logfile cause => cause.message
  | noLogfile => "expected str, bytes or os.PathLike object, not list"
  | config (.refused e) => e.message
  | config (.conversion cause) | conversion cause => cause.message
  | config (.unreadable _ text) => text
  | image (.refused e) => e.message
  | config .notUtf8 | image .notUtf8 => "invalid UTF-8"

/-- How a run ends, and what it shows. -/
structure Ending where
  /-- The status, or why there is none. -/
  status : Except Crash Nat
  /-- What is shown as output. -/
  stdout : String := ""
  /-- The message that is shown at the end. -/
  complaint : String := ""
  /-- What was reported on the way. -/
  events : List Event := []
  /-- What is left of the text of the terminal, if a machine ran on it. -/
  left : Option (List Char) := none

/-- The outcome of the command. -/
structure Outcome where
  status : Except Crash Nat
  stdout : String
  stderr : String
  /-- The text of the terminal as the command leaves it. -/
  unread : List Char
  /-- The files as the command leaves them. -/
  files : Files
  /-- Where lines were logged, if there were any. -/
  logged : Option Place := none

/-- The files that the command changed. Lines of a log tell when they were written, so a log that has
some is never the one that stood there before. -/
def Outcome.changed (o : Outcome) (before : Files) : List (Place × List UInt8) :=
  o.files.changedSince (match o.logged with
    | some place => before.erase place
    | none => before)

/-- Ends with a complaint about what was given. -/
def complain (text : String) : Ending := { status := .ok 2, complaint := text ++ "\n" }

/-- Ends with a crash. -/
def crash (cause : Crash) : Ending := { status := .error cause }

/-- The configuration that the options ask for. Phases from the command line replace those of the
configuration, which has to be right without them. -/
def loadConfig (reader : Config.Reader) (o : Options) (fs : Files) :
    Except ConfigFailure Config := do
  let c ← Config.load reader fs (match o.config with
    | .value path => .file path
    | .nothing => .other
    | .absent => .absent)
  let replaced (phases : Value) : Table := c.toTable.insert (.text "phase_settings") phases
  match o.phases with
  | .value phases => Config.ofTable (replaced (.text phases))
  | .nothing => Config.ofTable (replaced (.list []))
  | .absent => return c

/-- Where the program is. -/
def programPath (o : Options) (c : Config) : String :=
  match o.program with
  | some path => if path = "" then c.programPath else path
  | none => c.programPath

/-- Ends after a machine failed: what it has shown stays. A fault whose text cannot be written is not
reported, and there is no status then. -/
def machineFailed (cause : Fault) (stdout : String) (events : List Event) : Ending :=
  if cause.writable then
    { status := .ok 1, stdout, complaint := "Machine error: " ++ cause.message ++ "\n"
      events := events ++ [.programFailed cause] }
  else { crash (.conversion .notWritable) with stdout, events }

/-- Whole numbers with commas between them. -/
def commaList (xs : List Int) : String := ",".intercalate (xs.map toString)

/-- What there is to run once everything is loaded. -/
structure Job where
  config : Config
  image : List Int

/-- Loads the configuration and then the image that the options ask for. -/
def loadJob (reader : Config.Reader) (o : Options) (fs : Files) : Except Ending Job :=
  match loadConfig reader o fs with
  | .error (.refused e) => .error (complain ("Bad config: " ++ e.message))
  | .error cause => .error (crash (.config cause))
  | .ok config =>
    match Image.load fs (programPath o config) with
    | .error (.refused e) => .error (complain ("Bad program: " ++ e.message))
    | .error cause => .error (crash (.image cause))
    | .ok image => .ok ⟨config, image⟩

namespace Job

/-- Searches the best order of phases. What was reported is worked out only if it is wanted. -/
def amplify (job : Job) (wanted : Bool) : Ending :=
  let chain : Chain := ⟨job.image, job.config.tickLimit⟩
  let events := if wanted then chain.searchEvents job.config.phases else []
  match chain.search job.config.phases with
  | .ok best =>
    if Numeral.allWritable best.phases then
      { status := .ok 0, events,
        stdout := s!"max signal: {best.signal} phases: " ++ commaList best.phases ++ "\n" }
    else { crash (.conversion .notWritable) with events }
  | .error e => machineFailed e "" events

/-- The machine of a job, on a terminal with some text to read. -/
def machine (job : Job) (stdin : List Char) : Machine :=
  Machine.boot job.image (.terminal { unread := stdin }) job.config.tickLimit job.config.lenient

/-- Runs the program on the terminal. What was reported is worked out only if it is wanted. -/
def interact (job : Job) (stdin : List Char) (wanted : Bool) : Ending :=
  let m := job.machine stdin
  let events := if wanted then m.bootEvents ++ m.runEvents else []
  match m.run with
  | (.ok _, m') =>
    { status := .ok 0, stdout := m'.channel.shown, events := events ++ [.programHalted m'.tick]
      left := some m'.channel.unread }
  | (.error e, m') =>
    { machineFailed e m'.channel.shown events with left := some m'.channel.unread }

end Job

/-- Runs what the options ask for on the files and the text of the terminal. -/
def run (reader : Config.Reader) (o : Options) (fs : Files) (stdin : List Char) : Ending :=
  match loadJob reader o fs with
  | .error ending => ending
  | .ok job =>
    let ending := if o.amplify then job.amplify o.debug else job.interact stdin o.debug
    { ending with events := Image.loadEvents fs (programPath o job.config) ++ ending.events }

/-- The events that are logged. -/
def logged (o : Options) (events : List Event) : List Event :=
  if o.debug then events else events.filter (·.level = .error)

/-- The log of events: a line for each. -/
def logText (events : List Event) : String := joinLines (events.map Event.line)

/-- The files with a text at a place. -/
def putText (fs : Files) (place : Place) (text : String) : Files := fs.put place text.toUTF8.toList

/-- The names of a path up to the first null character. -/
def namesBeforeNull : List String → List String
  | [] => []
  | name :: names =>
    let head := name.toList.takeWhile (· ≠ '\x00')
    if head = name.toList then name :: namesBeforeNull names
    else if head.isEmpty then []
    else [String.ofList head]

/-- Where the log of a path is. A null character ends the path. -/
def logPlace (path : String) : Place :=
  let place := Place.ofPath (Path.parse path)
  { place with names := namesBeforeNull place.names }

/-- The files as a run finds them, and the place of its log, which has been emptied. -/
def openLog (o : Options) (fs : Files) : Except Crash (Place × Files) :=
  match o.logfile.value? with
  | none => .error .noLogfile
  | some path =>
    let place := logPlace path
    match fs.checkWritable place with
    | .error e => .error (.logfile e)
    | .ok _ => .ok (place, putText fs place "")

namespace Host

/-- One more record, for the log at a place. -/
def record (host : Host) (place : Place) (past : List Record) (e : Event) : List Record :=
  ⟨e, host.refusal? place past e⟩ :: past

/-- The records for events, in their order. -/
def records (host : Host) (place : Place) (events : List Event) : List Record :=
  (events.foldl (host.record place) []).reverse

/-- The events that the log at a place takes. -/
def taken (host : Host) (place : Place) (events : List Event) : List Event :=
  ((host.records place events).filter (·.refusal?.isNone)).map Record.event

/-- What is shown while events are logged: a report for each that the log does not take, and the event
itself if the log is echoed. -/
def shown (host : Host) (place : Place) (echo : Bool) (events : List Event) : String :=
  String.join ((host.records place events).map fun r =>
    r.refusal?.getD "" ++ if echo then r.event.line ++ "\n" else "")

end Host

/-- Runs what the options ask for, with a log. -/
def runLogged (host : Host) (o : Options) (fs : Files) (stdin : List Char) : Outcome :=
  match openLog o fs with
  | .error cause =>
    { status := .error cause, stdout := "", stderr := "", unread := stdin, files := fs }
  | .ok (place, fs) =>
    let ending := run host.reader o fs stdin
    let events := logged o ending.events
    let log := logText (host.taken place events)
    { status := ending.status
      stdout := ending.stdout
      stderr := host.shown place (o.debug && o.console) events ++ ending.complaint
      unread := ending.left.getD stdin
      files := putText fs place log
      logged := if log.isEmpty then none else some place }

/-- **The outcome of the command** for its arguments, the files and the text of the terminal. -/
def execute (host : Host) (arguments : List String) (fs : Files) (stdin : List Char) : Outcome :=
  let text := Text.unifyNewlines stdin
  match Options.parse arguments with
  | .ok o => runLogged host o fs text
  | .error .help => { status := .ok 0, stdout := help, stderr := "", unread := text, files := fs }
  | .error stop =>
    { status := .ok 2, stdout := "", unread := text, files := fs
      stderr := usage ++ "intcode: error: " ++ stop.message ++ "\n" }

/-! ## What the outcome depends on -/

/-- The paths that a run follows, as far as the known files tell. -/
def consulted (reader : Config.Reader) (o : Options) (fs : Files) : List String :=
  let program := match openLog o fs with
    | .ok (_, fs) => ((loadConfig reader o fs).map (programPath o)).toOption
    | .error _ => none
  o.logfile.value?.toList ++ o.config.value?.toList ++ program.toList

/-- The machine that a run puts on the terminal, if it comes to that. -/
def conversant? (reader : Config.Reader) (o : Options) (fs : Files) : Option Machine :=
  match openLog o fs with
  | .error _ => none
  | .ok (_, fs) =>
    match loadJob reader o fs with
    | .error _ => none
    | .ok job => if o.amplify then none else some (job.machine [])

end Intcode.CommandLine
