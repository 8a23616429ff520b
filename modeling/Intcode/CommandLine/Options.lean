import Intcode.Text.DecimalDigit
import Intcode.Text.Quoted

/-!
# Options of the command line

The arguments of the command are options, which start with a dash, and words, of
which the first one is the program. An option may be cut short as long as it stays
unique, and its value follows an equals sign or is the next word. After `--` all
arguments are words.

A word may start with a dash if it is a dash alone, a negative number or holds a
space. What is no option and no program is left over, and refused at the end; help
ends everything as soon as it is reached.

* `Options.parse`: the options that arguments ask for, or how the command ends
  without running.
-/

namespace Intcode.CommandLine

/-- An option of the command. -/
inductive Flag where
  | help
  | config
  | amplify
  | phases
  | debug
  | logfile
  | console
  deriving DecidableEq, Repr

namespace Flag

/-- All options in the order in which they are listed. -/
def all : List Flag := [help, config, amplify, phases, debug, logfile, console]

/-- The name of an option. -/
def name : Flag → String
  | help => "--help"
  | config => "--config"
  | amplify => "--amplify"
  | phases => "--phases"
  | debug => "--debug"
  | logfile => "--logfile"
  | console => "--console"

/-- The names of an option as messages show them. -/
def title : Flag → String
  | help => "-h/--help"
  | other => other.name

/-- Has the option a value? -/
def takesValue : Flag → Bool
  | config | phases | logfile => true
  | help | amplify | debug | console => false

/-- The option with exactly this name. -/
def named? (s : String) : Option Flag :=
  if s = "-h" then some .help else all.find? (·.name = s)

/-- The options whose names begin with a text. -/
def startingWith (s : List Char) : List Flag := all.filter fun f => s.isPrefixOf f.name.toList

end Flag

/-- What an argument is. -/
inductive Argument where
  /-- A program, a value or something left over. -/
  | word (text : String)
  /-- The mark behind which all arguments are words. -/
  | separator
  /-- An option with the value behind its equals sign. -/
  | option (flag : Flag) (attached : Option String)
  /-- The letter for help with something attached to it. -/
  | cluster (letters : List Char)
  /-- Something written like an option that is none. -/
  | unknown (text : String)
  deriving DecidableEq, Repr

/-- How the command ends without running. -/
inductive Stop where
  /-- The help is shown. -/
  | help
  | ambiguous (argument : String) (matching : List Flag)
  | valueMissing (flag : Flag)
  | valueIgnored (flag : Flag) (value : String)
  | unrecognized (arguments : List String)
  deriving DecidableEq, Repr

/-- Is the text a negative number, whole or with a fraction? A line feed may follow it. -/
def isNegativeNumber (s : List Char) : Bool :=
  let isDigit (c : Char) : Bool := (Text.digitValue? c).isSome
  let s := if s.getLast? = some '\n' then s.dropLast else s
  match s with
  | '-' :: body =>
    let rest := body.dropWhile isDigit
    match rest with
    | [] => !body.isEmpty
    | '.' :: fraction => !fraction.isEmpty && fraction.all isDigit
    | _ => false
  | _ => false

/-- The part of an argument before its first equals sign, and the part behind it if there is one. -/
def splitEquals (s : List Char) : List Char × Option (List Char) :=
  match s.dropWhile (· ≠ '=') with
  | _ :: value => (s.takeWhile (· ≠ '='), some value)
  | [] => (s, none)

/-- Tells what an argument in front of any separator is. -/
def classify (argument : String) : Except Stop Argument :=
  let s := argument.toList
  let (name, value) := splitEquals s
  let attached := value.map String.ofList
  match s, Flag.named? argument, Flag.named? (String.ofList name) with
  | _, some flag, _ => .ok (.option flag none)
  | '-' :: 'h' :: '=' :: letters, none, _ => .ok (.cluster letters)
  | '-' :: _ :: _, none, some flag => .ok (.option flag attached)
  | '-' :: 'h' :: letters, none, none => .ok (.cluster letters)
  | '-' :: second :: _, none, none =>
    match if second = '-' then Flag.startingWith name else [] with
    | [flag] => .ok (.option flag attached)
    | [] =>
      if isNegativeNumber s || s.contains ' ' then .ok (.word argument) else .ok (.unknown argument)
    | several => .error (.ambiguous argument several)
  | _, _, _ => .ok (.word argument)

/-- Tells what each argument is. -/
def classifyAll : List String → Except Stop (List Argument)
  | [] => .ok []
  | "--" :: rest => .ok (.separator :: rest.map .word)
  | argument :: rest => do
    let a ← classify argument
    let as ← classifyAll rest
    return a :: as

/-- What is given for an option that takes a value. -/
inductive Given where
  | absent
  /-- Two dashes behind the equals sign: they count as the separator, and no value is left. -/
  | nothing
  | value (text : String)
  deriving DecidableEq, Repr

/-- What a value stands for that is attached to an option. -/
def Given.ofAttached (value : String) : Given := if value = "--" then .nothing else .value value

/-- The value that is given. -/
def Given.value? : Given → Option String
  | value text => some text
  | absent | nothing => none

/-- The options that a command line asks for. -/
structure Options where
  program : Option String := none
  config : Given := .absent
  amplify : Bool := false
  phases : Given := .absent
  debug : Bool := false
  logfile : Given := .value "processor.log"
  console : Bool := false
  deriving DecidableEq, Repr

namespace Options

/-- The options with one more that has no value. -/
def set (o : Options) : Flag → Options
  | .amplify => { o with amplify := true }
  | .debug => { o with debug := true }
  | .console => { o with console := true }
  | .help | .config | .phases | .logfile => o

/-- The options with one more that has a value. The last one given counts. -/
def assign (o : Options) (value : Given) : Flag → Options
  | .config => { o with config := value }
  | .phases => { o with phases := value }
  | .logfile => { o with logfile := value }
  | .help | .amplify | .debug | .console => o

/-- How far the arguments were read. -/
structure Progress where
  options : Options := {}
  /-- May the program still come? -/
  awaitsProgram : Bool := true
  /-- What is left over, the latest first. -/
  extras : List String := []

/-- What is attached to the letter for help comes to help if it is more of that letter. Anything else
is refused, from its first other character on. -/
def stopAfterHelp (letters : List Char) : Stop :=
  let rest := letters.dropWhile (· = 'h')
  if rest.isEmpty && !letters.isEmpty then .help else .valueIgnored .help (String.ofList rest)

/-- Reads arguments one after the other. -/
def read (p : Progress) : List Argument → Except Stop Progress
  | [] => .ok p
  | .unknown text :: rest => read { p with extras := text :: p.extras } rest
  | .cluster letters :: _ => .error (stopAfterHelp letters)
  | .option flag attached :: rest =>
    match flag, attached with
    | .help, none => .error .help
    | _, some value =>
      if flag.takesValue then
        read { p with options := p.options.assign (.ofAttached value) flag } rest
      else .error (.valueIgnored flag value)
    | _, none =>
      if flag.takesValue then
        match rest with
        | .word value :: rest =>
          read { p with options := p.options.assign (.value value) flag } rest
        | _ => .error (.valueMissing flag)
      else read { p with options := p.options.set flag } rest
  | .separator :: rest =>
    if p.awaitsProgram then
      match rest with
      | .word text :: rest =>
        read { p with options := { p.options with program := some text }, awaitsProgram := false } rest
      | rest => read { p with awaitsProgram := false } rest
    else read { p with extras := "--" :: p.extras } rest
  | .word text :: rest =>
    if p.awaitsProgram then
      let p := { p with options := { p.options with program := some text }, awaitsProgram := false }
      match rest with
      | .separator :: rest => read p rest
      | rest => read p rest
    else read { p with extras := text :: p.extras } rest

/-- The options that the arguments ask for. -/
def parse (arguments : List String) : Except Stop Options := do
  let p ← read {} (← classifyAll arguments)
  if p.extras.isEmpty then return p.options else throw (.unrecognized p.extras.reverse)

end Options

end Intcode.CommandLine
