import Intcode.Proofs.CommandOutcome
import Intcode.Proofs.RunLog

/-!
# The log and the outcome

How much is logged, and where the log is shown, changes nothing else. The options for it
are looked at when the log is written and nowhere before; and all that a machine, a stage
or a search reports is for debugging, so that a log without debugging holds no part of it.
Only a log that does not take a record shows in what is reported.

* `Machine.runEvents_minor`, `Chain.searchEvents_minor`: what is reported for debugging.
* `run_quiet`: a run ends alike, whatever is reported for debugging.
* `runLogged_eq`: the outcome in terms of all that there is to report.
* `Files.entry?_put_of_ne`: a file does not show at other places.
* `execute_verbosity`: what verbosity changes.
* `execute_refused_records`: a log that takes no records.
-/

namespace Intcode

/-- Are all the events for debugging? -/
def Event.Minor (events : List Event) : Prop := ∀ e ∈ events, e.level = .debug

namespace Event.Minor

variable {events events' : List Event}

theorem append (h : Minor events) (h' : Minor events') : Minor (events ++ events') :=
  List.forall_mem_append.2 ⟨h, h'⟩

/-- Without debugging no part of them is logged. -/
theorem filter_error (h : Minor events) : events.filter (·.level = .error) = [] := by
  rw [List.filter_eq_nil_iff]
  intro e he
  rw [h e he]
  decide

end Event.Minor

open Event (Minor)

namespace Machine

variable {m : Machine}

theorem bootEvents_minor (m : Machine) : Minor m.bootEvents :=
  List.forall_mem_singleton.2 rfl

/-- **All that a step reports is for debugging.** -/
theorem stepEvents_minor (m : Machine) : Minor m.stepEvents := by
  intro e he
  rw [stepEvents_eq, List.mem_append] at he
  rcases he with he | he
  · -- the trace, unless the machine is lenient
    split at he
    · cases he
    · have htrace := isTrace_of_mem_trace? he
      cases e with
      | decoded => rfl
      | _ => cases htrace
  · rcases mem_remarks he with ⟨i, hi⟩ | ⟨cause, rfl⟩
    · rcases mem_execEvents hi with ⟨v, rfl⟩ | ⟨v, rfl⟩ | rfl <;> rfl
    · rfl

theorem stepsEvents_minor (m : Machine) (n : Nat) : Minor (m.stepsEvents n) := by
  induction n generalizing m with
  | zero => exact List.forall_mem_nil _
  | succ n ih => exact m.stepEvents_minor.append (ih m.step.2)

/-- **All that a run reports is for debugging.** -/
theorem runEvents_minor (m : Machine) : Minor m.runEvents := by
  obtain ⟨n, -, hruns⟩ := exists_runs m
  rw [hruns.runEvents_eq]
  apply (m.stepsEvents_minor n).append
  unfold endEvents
  split
  · exact List.forall_mem_singleton.2 rfl
  · exact List.forall_mem_nil _

end Machine

namespace Chain

/-- All that a stage reports is for debugging. -/
theorem stageEvents_minor (c : Chain) (stage phase signal : Int) :
    Minor (c.stageEvents stage phase signal) := by
  unfold stageEvents
  apply ((Machine.bootEvents_minor _).append (Machine.runEvents_minor _)).append
  split
  · split
    · exact List.forall_mem_singleton.2 rfl
    · exact List.forall_mem_nil _
  · exact List.forall_mem_nil _

theorem feedEvents_minor (c : Chain) (stage : Nat) (signal : Int) (phases : List Int) :
    Minor (c.feedEvents stage signal phases) := by
  induction phases generalizing stage signal with
  | nil => exact List.forall_mem_nil _
  | cons phase phases ih =>
    rw [feedEvents]
    apply (c.stageEvents_minor stage phase signal).append
    split
    · exact ih _ _
    · exact List.forall_mem_nil _

/-- All that a chain reports on an order is for debugging. -/
theorem runEvents_minor (c : Chain) (phases : List Int) : Minor (c.runEvents phases) := by
  unfold runEvents
  split
  · exact c.feedEvents_minor 0 0 phases
  · exact List.forall_mem_nil _

/-- What was reported by the time the orders were gone through, or one of them failed. -/
theorem foldlM_logOrder_minor (c : Chain) (orders : List (List Int)) {log : Array Event}
    (h : Minor log.toList) :
    (∀ log', orders.foldlM c.logOrder log = .ok log' → Minor log'.toList) ∧
      ∀ log', orders.foldlM c.logOrder log = .error log' → Minor log'.toList := by
  induction orders generalizing log with
  | nil =>
    constructor
    · rintro log' ⟨⟩
      exact h
    · rintro log' ⟨⟩
  | cons order orders ih =>
    have hlog : Minor (log.appendList (c.runEvents order)).toList := by
      rw [Array.appendList_eq_append, Array.toList_appendList]
      exact h.append (c.runEvents_minor order)
    rw [List.foldlM_cons]
    cases hrun : c.run order with
    | ok signal =>
      have horder : c.logOrder log order = .ok (log.appendList (c.runEvents order)) := by
        simp only [logOrder, hrun]
      rw [horder]
      exact ih hlog
    | error e =>
      have horder : c.logOrder log order = .error (log.appendList (c.runEvents order)) := by
        simp only [logOrder, hrun]
      rw [horder]
      constructor
      · rintro log' ⟨⟩
      · rintro log' ⟨⟩
        exact hlog

/-- **All that a search reports is for debugging.** -/
theorem searchEvents_minor (c : Chain) (pool : List Int) : Minor (c.searchEvents pool) := by
  have hempty : Minor (#[] : Array Event).toList := List.forall_mem_nil _
  obtain ⟨hok, herror⟩ := c.foldlM_logOrder_minor (arrangements pool) hempty
  unfold searchEvents
  rw [visit_eq_foldlM]
  split
  · exact List.forall_mem_nil _
  · split
    · next hlog _ => exact (hok _ hlog).append (List.forall_mem_singleton.2 rfl)
    · next hlog _ => exact hok _ hlog
    · next hlog => exact herror _ hlog

end Chain

namespace Files

variable {fs : Files} {place q : Place}

/-- Another file at a place is at the same place. -/
theorem fst_replace (p : Place → Bool) (place : Place) (octets : List UInt8) :
    (fun e : Place × Entry => p e.1) ∘
      (fun e => if e.1 = place then (place, Entry.file octets) else e) = fun e => p e.1 := by
  funext e
  by_cases h : e.1 = place <;> simp [h]

/-- What is put at a place stands there. -/
theorem entry?_put (hplace : place.names ≠ []) (octets : List UInt8) :
    entry? (fs.put place octets) place = some (.file octets) := by
  have hfind : (fs.put place octets).entries.find? (·.1 = place) = some (place, .file octets) := by
    unfold put
    split
    · next hany =>
      obtain ⟨e, he⟩ := Option.isSome_iff_exists.1 (List.find?_isSome.2 (List.any_eq_true.1 hany))
      have hfound := List.find?_some he
      rw [decide_eq_true_eq] at hfound
      rw [List.find?_map, fst_replace (fun x => decide (x = place)), he, Option.map_some,
        if_pos hfound]
    · next hany =>
      have hnone : fs.entries.find? (·.1 = place) = none := by
        rw [List.find?_eq_none]
        intro e he hplace
        exact hany (List.any_eq_true.2 ⟨e, he, hplace⟩)
      rw [List.find?_append, hnone]
      simp
  unfold entry?
  rw [if_neg hplace, hfind]

theorem find?_put_of_ne (hne : q ≠ place) (octets : List UInt8) :
    (fs.put place octets).entries.find? (·.1 = q) = fs.entries.find? (·.1 = q) := by
  unfold put
  split
  · rw [List.find?_map, fst_replace (fun x => decide (x = q))]
    cases hfind : fs.entries.find? (·.1 = q) with
    | none => rfl
    | some e =>
      have hfound := List.find?_some hfind
      rw [decide_eq_true_eq] at hfound
      rw [Option.map_some, if_neg (by rw [hfound]; exact hne)]
  · have hother : [(place, Entry.file octets)].find? (·.1 = q) = none := by
      simp [hne.symm]
    rw [List.find?_append, hother, Option.or_none]

theorem any_put (p : Place → Bool) (octets octets' : List UInt8) :
    (fs.put place octets).entries.any (fun e => p e.1) =
      (fs.put place octets').entries.any fun e => p e.1 := by
  unfold put
  split
  · simp only [List.any_map, fst_replace p]
  · simp only [List.any_append, List.any_cons]

/-- **What is in a file shows at no other place.** -/
theorem entry?_put_of_ne (hne : q ≠ place) (octets octets' : List UInt8) :
    entry? (fs.put place octets) q = entry? (fs.put place octets') q := by
  unfold entry?
  rw [find?_put_of_ne hne, find?_put_of_ne hne, any_put (·.within q) octets octets']

end Files

namespace CommandLine

/-- The end of a run without what was reported for debugging. -/
def Ending.quiet (ending : Ending) : Ending :=
  { ending with events := ending.events.filter (·.level = .error) }

/-- A machine that failed is all that is left of the end. -/
theorem quiet_machineFailed (cause : Fault) (stdout : String) {events events' : List Event}
    (h : Minor events) (h' : Minor events') :
    (machineFailed cause stdout events).quiet = (machineFailed cause stdout events').quiet := by
  unfold machineFailed
  split
  · simp only [Ending.quiet, List.filter_append, h.filter_error, h'.filter_error]
  · simp only [Ending.quiet, h.filter_error, h'.filter_error]

namespace Job

/-- **A search ends alike**, whether or not it is reported what it does. -/
theorem amplify_quiet (job : Job) (wanted wanted' : Bool) :
    (job.amplify wanted).quiet = (job.amplify wanted').quiet := by
  have hminor : ∀ wanted : Bool, Minor (if wanted then
      Chain.searchEvents ⟨job.image, job.config.tickLimit⟩ job.config.phases else []) := by
    intro wanted
    split
    · exact Chain.searchEvents_minor _ _
    · exact List.forall_mem_nil _
  unfold amplify
  simp only
  split
  · split
    · simp only [Ending.quiet, (hminor _).filter_error]
    · simp only [Ending.quiet, (hminor _).filter_error]
  · exact quiet_machineFailed _ _ (hminor wanted) (hminor wanted')

/-- **A program on the terminal ends alike**, whether or not it is reported what it does. -/
theorem interact_quiet (job : Job) (stdin : List Char) (wanted wanted' : Bool) :
    (job.interact stdin wanted).quiet = (job.interact stdin wanted').quiet := by
  have hminor : ∀ wanted : Bool, Minor (if wanted then
      (job.machine stdin).bootEvents ++ (job.machine stdin).runEvents else []) := by
    intro wanted
    split
    · exact (Machine.bootEvents_minor _).append (Machine.runEvents_minor _)
    · exact List.forall_mem_nil _
  unfold interact
  simp only
  split
  · simp only [Ending.quiet, List.filter_append, (hminor _).filter_error]
  · next e m' _ =>
    exact congrArg ({ · with left := some m'.channel.unread })
      (quiet_machineFailed e m'.channel.shown (hminor wanted) (hminor wanted'))

end Job

variable {host : Host} {o : Options} {fs : Files}

/-- More reports in front of others. -/
theorem Ending.quiet_prepend (ending : Ending) (events : List Event) :
    Ending.quiet { ending with events := events ++ ending.events } =
      { ending.quiet with events := events.filter (·.level = .error) ++ ending.quiet.events } := by
  simp only [quiet, List.filter_append]

/-- **A run ends alike**, whatever is reported for debugging. -/
theorem run_quiet (reader : Config.Reader) (o : Options) (fs : Files) (stdin : List Char)
    (debug : Bool) :
    (run reader { o with debug := debug } fs stdin).quiet = (run reader o fs stdin).quiet := by
  have hload : loadJob reader { o with debug := debug } fs = loadJob reader o fs := rfl
  unfold run
  rw [hload]
  cases loadJob reader o fs with
  | error ending => rfl
  | ok job =>
    have hjob : (if o.amplify then job.amplify debug else job.interact stdin debug).quiet =
        (if o.amplify then job.amplify o.debug else job.interact stdin o.debug).quiet := by
      split
      · exact job.amplify_quiet debug o.debug
      · exact job.interact_quiet stdin debug o.debug
    simp only
    rw [Ending.quiet_prepend, hjob, ← Ending.quiet_prepend]
    rfl

/-- All that there is to report of a run, if its log can be opened. -/
def reported (reader : Config.Reader) (o : Options) (fs : Files) (stdin : List Char) : List Event :=
  match openLog o fs with
  | .ok (_, found) => (run reader { o with debug := true } found stdin).events
  | .error _ => []

/-- **The outcome in terms of all that there is to report**: the log holds as much of it as the options
ask for and the host takes, and the host shows what it does not take, and the log itself if the options
ask for that, in front of the complaint. All else does not depend on what they ask for. -/
theorem runLogged_eq (host : Host) {place : Place} {found : Files}
    (h : openLog o fs = .ok (place, found)) (stdin : List Char) :
    let full := run host.reader { o with debug := true } found stdin
    let events := logged o (reported host.reader o fs stdin)
    let out := runLogged host o fs stdin
    out.status = full.status ∧ out.stdout = full.stdout ∧ out.unread = full.left.getD stdin ∧
      out.stderr = host.shown place (o.debug && o.console) events ++ full.complaint ∧
      out.files = putText found place (logText (host.taken place events)) := by
  intro full events out
  have hquiet : full.quiet = (run host.reader o found stdin).quiet :=
    run_quiet host.reader o found stdin true
  have hstatus : full.status = (run host.reader o found stdin).status := congrArg (·.status) hquiet
  have hstdout : full.stdout = (run host.reader o found stdin).stdout := congrArg (·.stdout) hquiet
  have hcomplaint : full.complaint = (run host.reader o found stdin).complaint :=
    congrArg (·.complaint) hquiet
  have hleft : full.left = (run host.reader o found stdin).left := congrArg (·.left) hquiet
  have hlogged : events = logged o (run host.reader o found stdin).events := by
    simp only [events, reported, h]
    cases hdebug : o.debug with
    | true =>
      have hself : { o with debug := true } = o := by rw [← hdebug]
      rw [hself]
    | false =>
      have hevents : full.events.filter (·.level = .error) = _ := congrArg (·.events) hquiet
      simp only [logged, hdebug, Bool.false_eq_true, if_false]
      exact hevents
  simp only [hlogged, hstatus, hstdout, hcomplaint, hleft, out, runLogged, h, and_self]

theorem runLogged_of_openLog_error {cause : Crash} (h : openLog o fs = .error cause)
    (stdin : List Char) : runLogged host o fs stdin =
      { status := .error cause, stdout := "", stderr := "", unread := stdin, files := fs } := by
  simp only [runLogged, h]

/-- The log has a place of its own, which is a file then. -/
theorem names_of_openLog {place : Place} {found : Files} (h : openLog o fs = .ok (place, found)) :
    place.names ≠ [] ∧ o.logfile.value?.map logPlace = some place := by
  unfold openLog at h
  split at h
  · cases h
  next path hpath =>
    simp only at h
    split at h
    · cases h
    next hwritable =>
      cases h
      refine ⟨?_, by rw [hpath]; rfl⟩
      intro hnames
      -- a place without names is a directory
      have hdirectory : fs.entry? (logPlace path) = some .directory := if_pos hnames
      rw [Files.checkWritable, if_pos hdirectory] at hwritable
      cases hwritable

namespace Host

variable {place : Place} {events : List Event}

/-- Each event makes one more record, with the answer of the host to it. -/
theorem foldl_record (host : Host) (place : Place) (events : List Event) (past : List Record) :
    ∃ more, (events.foldl (host.record place) past).reverse = past.reverse ++ more ∧
      more.map Record.event = events ∧
      ∀ r ∈ more, ∃ before, r.refusal? = host.refusal? place before r.event := by
  induction events generalizing past with
  | nil => exact ⟨[], by simp⟩
  | cons e rest ih =>
    obtain ⟨more, hmore, hevents, hanswers⟩ := ih (host.record place past e)
    refine ⟨⟨e, host.refusal? place past e⟩ :: more, ?_, ?_, ?_⟩
    · rw [List.foldl_cons, hmore]
      simp [record]
    · rw [List.map_cons, hevents]
    · rintro r (⟨⟩ | ⟨-, hr⟩)
      · exact ⟨past, rfl⟩
      · exact hanswers r hr

/-- There is one record for each event. -/
theorem map_event_records : (host.records place events).map Record.event = events := by
  obtain ⟨more, hmore, hevents, -⟩ := foldl_record host place events []
  rw [records, hmore]
  exact hevents

/-- A log takes all events exactly if no record is refused. -/
theorem taken_eq_self_iff :
    host.taken place events = events ↔ ∀ r ∈ host.records place events, r.refusal? = none := by
  have hself : (host.records place events).map Record.event = events := map_event_records
  constructor
  · intro h r hr
    have hlength : ((host.records place events).filter (·.refusal?.isNone)).length =
        (host.records place events).length := by
      have htaken := congrArg List.length (h.trans hself.symm)
      rwa [taken, List.length_map, List.length_map] at htaken
    simpa using List.length_filter_eq_length_iff.1 hlength r hr
  · intro h
    have hall : (host.records place events).filter (·.refusal?.isNone) = host.records place events :=
      List.filter_eq_self.2 fun r hr => by rw [h r hr]; rfl
    rw [taken, hall, hself]

/-- A log that refuses nothing takes all events. -/
theorem taken_of_willing (h : ∀ past e, host.refusal? place past e = none) :
    host.taken place events = events := by
  rw [taken_eq_self_iff]
  intro r hr
  obtain ⟨more, hmore, -, hanswers⟩ := foldl_record host place events []
  rw [records, hmore] at hr
  obtain ⟨before, hanswer⟩ := hanswers r hr
  rw [hanswer, h]

/-- Nothing is shown of events that the log takes, unless it is echoed. -/
theorem shown_of_taken (h : host.taken place events = events) :
    host.shown place false events = "" := by
  have hnone : ((host.records place events).map fun r =>
      r.refusal?.getD "" ++ if false = true then r.event.line ++ "\n" else "") =
      (host.records place events).map fun _ => "" := by
    refine List.map_congr_left fun r hr => ?_
    rw [taken_eq_self_iff.1 h r hr]
    rfl
  rw [shown, hnone, List.map_const']
  induction (host.records place events).length with
  | zero => rfl
  | succ n ih => rw [List.replicate_succ, String.join_cons, ih]; rfl

/-- Something is shown if the first event is refused. -/
theorem shown_ne_empty {e : Event} {text : String} (h : host.refusal? place [] e = some text)
    (htext : text ≠ "") (echo : Bool) : host.shown place echo (e :: events) ≠ "" := by
  obtain ⟨more, hmore, -⟩ := foldl_record host place events (host.record place [] e)
  have hrecords : host.records place (e :: events) = ⟨e, some text⟩ :: more := by
    rw [← h]
    exact hmore
  rw [shown, hrecords, List.map_cons, String.join_cons]
  simp [htext]

end Host

/-- **Verbosity changes the log, and nothing else.** Two command lines ask for the same but for
`--debug` and `--console`, and are carried out on the same host, the same files and the same text of
the terminal.

* They end with the same status or with the same crash, show the same output and leave the same text.
* They show the same complaints, if neither has `--debug`, or if neither has `--console` and each log
  takes all that is logged.
* They leave the same at every place but that of the log.
* If the log can be opened, both logs are taken from one list of events: with `--debug` the whole list
  is logged, and without it the errors in the list. -/
theorem execute_verbosity (host : Host) {arguments arguments' : List String} {o o' : Options}
    (hparse : Options.parse arguments = .ok o) (hparse' : Options.parse arguments' = .ok o')
    (hsame : o' = { o with debug := o'.debug, console := o'.console }) (fs : Files)
    (stdin : List Char) :
    let out := execute host arguments fs stdin
    let out' := execute host arguments' fs stdin
    let events := reported host.reader o fs (Text.unifyNewlines stdin)
    out'.status = out.status ∧ out'.stdout = out.stdout ∧ out'.unread = out.unread ∧
    (o.debug = false ∧ o'.debug = false ∨ o.console = false ∧ o'.console = false ∧
        (∀ place, o.logfile.value?.map logPlace = some place →
          host.taken place (logged o events) = logged o events ∧
            host.taken place (logged o' events) = logged o' events) →
      out'.stderr = out.stderr) ∧
    (∀ place, o.logfile.value?.map logPlace ≠ some place →
      out'.files.entry? place = out.files.entry? place) ∧
    ∀ place found, openLog o fs = .ok (place, found) →
      out.files.entry? place =
        some (.file (logText (host.taken place (logged o events))).toUTF8.toList) ∧
      out'.files.entry? place =
        some (.file (logText (host.taken place (logged o' events))).toUTF8.toList) := by
  intro out out' events
  have hout : out = runLogged host o fs (Text.unifyNewlines stdin) := by
    simp only [out, execute, hparse]
  have hout' : out' = runLogged host o' fs (Text.unifyNewlines stdin) := by
    simp only [out', execute, hparse']
  have hopen : openLog o' fs = openLog o fs := by rw [hsame]; rfl
  rw [hout, hout']
  cases hlog : openLog o fs with
  | error cause =>
    rw [runLogged_of_openLog_error hlog, runLogged_of_openLog_error (hopen.trans hlog)]
    exact ⟨rfl, rfl, rfl, fun _ => rfl, fun _ _ => rfl, fun _ _ h => by cases h⟩
  | ok opened =>
    obtain ⟨place, found⟩ := opened
    have hfull : run host.reader { o' with debug := true } found (Text.unifyNewlines stdin) =
        run host.reader { o with debug := true } found (Text.unifyNewlines stdin) := by rw [hsame]; rfl
    have hevents : reported host.reader o' fs (Text.unifyNewlines stdin) = events := by
      simp only [events, reported, hopen, hlog, hfull]
    obtain ⟨hstatus, hstdout, hunread, hstderr, hfiles⟩ :=
      runLogged_eq host hlog (Text.unifyNewlines stdin)
    obtain ⟨hstatus', hstdout', hunread', hstderr', hfiles'⟩ :=
      runLogged_eq host (hopen.trans hlog) (Text.unifyNewlines stdin)
    rw [hfull] at hstatus' hstdout' hunread' hstderr'
    rw [hevents] at hstderr' hfiles'
    obtain ⟨hnames, hplace⟩ := names_of_openLog hlog
    refine ⟨hstatus'.trans hstatus.symm, hstdout'.trans hstdout.symm, hunread'.trans hunread.symm,
      ?_, ?_, ?_⟩
    · rintro (⟨h, h'⟩ | ⟨h, h', htakes⟩)
      · -- the same records are logged, and neither log is echoed
        rw [hstderr, hstderr', logged, logged, h, h']
        rfl
      · -- all records are taken, and neither log is echoed
        obtain ⟨htaken, htaken'⟩ := htakes place hplace
        rw [hstderr, hstderr', h, h', Bool.and_false, Bool.and_false, Host.shown_of_taken htaken,
          Host.shown_of_taken htaken']
    · intro q hq
      rw [hplace] at hq
      rw [hfiles, hfiles']
      exact Files.entry?_put_of_ne (fun h => hq (by rw [h])) _ _
    · rintro _ _ ⟨⟩
      rw [hfiles, hfiles']
      exact ⟨Files.entry?_put hnames _, Files.entry?_put hnames _⟩

/-- A program that writes a number and halts: the job that it is, and what is reported first. -/
theorem loadJob_writes (reader : Config.Reader) :
    let fs : Files := ⟨[(⟨.above 0, ["p"]⟩, .file [49, 48, 52, 44, 55, 44, 57, 57, 10])]⟩
    let found : Files := putText fs ⟨.above 0, ["processor.log"]⟩ ""
    openLog { program := some "p" } fs = .ok (⟨.above 0, ["processor.log"]⟩, found) ∧
      ∀ debug, let o : Options := { program := some "p", debug := debug }
        loadJob reader o found = .ok ⟨Config.default, [104, 7, 99]⟩ ∧
          Image.loadEvents found (programPath o Config.default) = [.imageRead 3 "p"] := by
  intro fs found
  have himage : Image.load found "p" = .ok [104, 7, 99] := by
    have hline : firstLine? [49, 48, 52, 44, 55, 44, 57, 57, 10] = some "104,7,99\n".toList := by
      rw [firstLine?, firstLineFrom, dif_neg (by decide)]
      rfl
    have hfile : found.find? "p" = some (.file [49, 48, 52, 44, 55, 44, 57, 57, 10]) := rfl
    simp only [Image.load, hfile, hline]
    rfl
  refine ⟨rfl, fun debug => ⟨loadJob_eq_ok_iff.2 ⟨rfl, himage⟩, ?_⟩⟩
  show Image.loadEvents found "p" = _
  rw [Image.loadEvents, himage]
  rfl

/-- A program that writes a number and halts shows this number, whether or not there is debugging, and
does not show its log. -/
theorem execute_verbosity_writes :
    let host : Host := { reader := fun _ => .error .notUtf8 }
    let fs : Files := ⟨[(⟨.above 0, ["p"]⟩, .file [49, 48, 52, 44, 55, 44, 57, 57, 10])]⟩
    let out := execute host ["p"] fs []
    let out' := execute host ["--debug", "p"] fs []
    out.status = .ok 0 ∧ out.stdout = "7\n" ∧ out.stderr = "" ∧
      out'.status = .ok 0 ∧ out'.stdout = "7\n" ∧ out'.stderr = "" := by
  intro host fs out out'
  let o : Options := { program := some "p" }
  obtain ⟨hlog, hfound⟩ := loadJob_writes host.reader
  obtain ⟨hstatus, hstdout, hstderr⟩ : out.status = .ok 0 ∧ out.stdout = "7\n" ∧ out.stderr = "" := by
    show (runLogged host o fs []).status = _ ∧ (runLogged host o fs []).stdout = _ ∧
      (runLogged host o fs []).stderr = _
    simp only [runLogged, o, fs, hlog, run, hfound]
    exact ⟨rfl, rfl, rfl⟩
  have hparse : Options.parse ["p"] = .ok o := rfl
  have hparse' : Options.parse ["--debug", "p"] = .ok { o with debug := true } := rfl
  obtain ⟨hstatus', hstdout', -, hstderr', -⟩ := execute_verbosity host hparse hparse' rfl fs []
  exact ⟨hstatus, hstdout, hstderr, hstatus'.trans hstatus, hstdout'.trans hstdout,
    (hstderr' (.inr ⟨rfl, rfl, fun _ _ => ⟨Host.taken_of_willing fun _ _ => rfl,
      Host.taken_of_willing fun _ _ => rfl⟩⟩)).trans hstderr⟩

/-- **A log that takes no records**, as one on a full device. There is nothing to log without
`--debug`, and with it the host complains of each record, though neither run has `--console`. -/
theorem execute_refused_records :
    let host : Host :=
      { reader := fun _ => .error .notUtf8, refusal? := fun _ _ _ => some "--- Logging error ---\n" }
    let fs : Files := ⟨[(⟨.above 0, ["p"]⟩, .file [49, 48, 52, 44, 55, 44, 57, 57, 10])]⟩
    (∃ place found, openLog { program := some "p" } fs = .ok (place, found)) ∧
      (execute host ["p"] fs []).stderr = "" ∧ (execute host ["--debug", "p"] fs []).stderr ≠ "" := by
  intro host fs
  obtain ⟨hlog, hfound⟩ := loadJob_writes host.reader
  refine ⟨⟨_, _, hlog⟩, ?_, ?_⟩
  · show (runLogged host { program := some "p" } fs []).stderr = ""
    simp only [runLogged, fs, hlog, run, hfound]
    rfl
  · have hlog' : openLog { program := some "p", debug := true } fs = _ := hlog
    show (runLogged host { program := some "p", debug := true } fs []).stderr ≠ ""
    simp only [runLogged, hlog', run, hfound, logged, if_true, List.cons_append]
    intro hempty
    exact Host.shown_ne_empty rfl (by decide) _ (String.append_eq_empty_iff.1 hempty).1

end CommandLine

end Intcode
