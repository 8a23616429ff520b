import Intcode.CommandLine.Run
import Intcode.Proofs.NumberLines
import Intcode.Proofs.Reachable

/-!
# Outcomes of the command

What the status of the command tells. It is 2 if the configuration or the program was
refused, and nothing was read from the terminal or shown on it then; else both were
loaded, and it is 0 or 1 as what was run on them succeeded or failed. This is so on every
host, whatever text it reads as a configuration and whatever records its log takes.

* `Terminal.foldl_undergo`: calls take a line for each read and show one for each write.
* `Job.interact_ending`, `Job.amplify_ending`: how the two kinds of jobs end.
* `loadJob_error`: how a run ends that has nothing to run.
* `execute_status`: what a status tells of the outcome.
-/

namespace Intcode

/-- The value that a call writes. -/
def Exchange.sent? : Exchange → Option Int
  | .write v _ => some v
  | .read _ => none

/-- Does the call ask for a value? -/
def Exchange.asks : Exchange → Bool
  | .read _ => true
  | .write _ _ => false

/-- **A terminal without a prompt after some calls**: a line is gone for each read, and a line is shown
for each write, if all numbers can be written. -/
theorem Terminal.foldl_undergo {t : Terminal} (hprompt : t.prompt = "") (xs : List Exchange)
    (hsent : ∀ v ∈ xs.filterMap Exchange.sent?, Numeral.writable v = true) :
    xs.foldl Channel.undergo (.terminal t) = .terminal
      { t with
        unread := ((Text.lines t.unread).drop (xs.countP Exchange.asks)).flatten
        shown := t.shown ++ written (xs.filterMap Exchange.sent?) } := by
  induction xs generalizing t with
  | nil => simp [written, Text.flatten_lines]
  | cons x xs ih =>
    rw [List.foldl_cons]
    cases x with
    | read outcome =>
      show xs.foldl Channel.undergo (.terminal t.read.2) = _
      rw [ih (t := t.read.2) hprompt hsent]
      simp [read, hprompt, Exchange.asks, Exchange.sent?, List.countP_cons, List.filterMap_cons,
        Text.lines_dropLine]
    | write v outcome =>
      have hcons : (Exchange.write v outcome :: xs).filterMap Exchange.sent? =
          v :: xs.filterMap Exchange.sent? := List.filterMap_cons_some rfl
      rw [hcons] at hsent
      obtain ⟨hv, hrest⟩ := List.forall_mem_cons.1 hsent
      have hwrite : (t.write v).2 = { t with shown := t.shown ++ toString v ++ "\n" } := by
        rw [write, if_pos hv]
      show xs.foldl Channel.undergo (.terminal (t.write v).2) = _
      rw [hwrite, ih (t := { t with shown := t.shown ++ toString v ++ "\n" }) hprompt hrest]
      simp [Exchange.asks, Exchange.sent?, written, String.append_assoc]

/-- What a run on a text leaves: a line of it is gone for each read, and a line is shown for each
write. -/
theorem Machine.run_channel {m : Machine} {text : List Char} (hm : m.Sound)
    (h : m.channel = .terminal { unread := text }) :
    ∃ k, Runs k m m.run ∧ m.run.2.channel = .terminal
      { unread := ((Text.lines text).drop ((m.exchanges k).countP Exchange.asks)).flatten
        shown := Terminal.written ((m.exchanges k).filterMap Exchange.sent?) } := by
  obtain ⟨k, -, hruns⟩ := exists_runs m
  refine ⟨k, hruns, ?_⟩
  -- what a machine writes are words
  have hsent : ∀ v ∈ (m.exchanges k).filterMap Exchange.sent?, Numeral.writable v = true := by
    intro v hv
    obtain ⟨x, hx, hsent⟩ := List.mem_filterMap.1 hv
    cases x with
    | read outcome => cases hsent
    | write w outcome =>
      cases hsent
      exact Word.writable_of_inRange (exchanges_inRange hm k hx)
  rw [hruns.snd_eq_after, after_channel_eq, h, Terminal.foldl_undergo rfl _ hsent, String.empty_append]

namespace CommandLine

namespace Job

/-- A machine that failed ends the command with 1, or without a status if the fault cannot be written. -/
theorem machineFailed_ending {cause : Fault} {stdout : String} {events : List Event} {n : Nat}
    (h : (machineFailed cause stdout events).status = .ok n) :
    n = 1 ∧ cause.writable = true ∧ (machineFailed cause stdout events).stdout = stdout ∧
      (machineFailed cause stdout events).complaint = "Machine error: " ++ cause.message ++ "\n" := by
  unfold machineFailed at h ⊢
  split at h
  · next hw =>
    cases h
    exact ⟨rfl, hw, by rw [if_pos hw], by rw [if_pos hw]⟩
  · cases h

/-- **How a job on the terminal ends**, if with a status: with 0 if the machine halted and with 1 if it
failed. What it has shown stays. -/
theorem interact_ending (job : Job) (stdin : List Char) (wanted : Bool) {n : Nat}
    (h : (job.interact stdin wanted).status = .ok n) :
    let m := job.machine stdin
    let ending := job.interact stdin wanted
    ending.stdout = m.run.2.channel.shown ∧ ending.left = some m.run.2.channel.unread ∧
    (m.run.2.status = .halted ∧ m.run.1 = .ok .halted ∧ n = 0 ∨
      ∃ e, m.run.2.status = .errored ∧ m.run.1 = .error e ∧ n = 1 ∧
        ending.complaint = "Machine error: " ++ e.message ++ "\n") := by
  intro m ending
  obtain ⟨k, -, hruns⟩ := Machine.exists_runs m
  rcases hruns.ends rfl with ⟨hok, hhalted, -⟩ | ⟨e, herror, herrored, -⟩
  · have hrun : m.run = (.ok .halted, m.run.2) := by rw [← hok]
    simp only [ending, interact] at h ⊢
    rw [hrun] at h ⊢
    cases h
    exact ⟨rfl, rfl, .inl ⟨hhalted, rfl, rfl⟩⟩
  · have hrun : m.run = (.error e, m.run.2) := by rw [← herror]
    simp only [ending, interact] at h ⊢
    rw [hrun] at h ⊢
    obtain ⟨hn, hw, hstdout, hcomplaint⟩ := machineFailed_ending h
    rw [hw] at herrored
    exact ⟨hstdout, rfl, .inr ⟨e, herrored, rfl, hn, hcomplaint⟩⟩

/-- **How the search ends**: with 0 and the best order shown, or with 1 and nothing shown, unless there
is a number that cannot be written. -/
theorem amplify_ending (job : Job) (wanted : Bool) {n : Nat}
    (h : (job.amplify wanted).status = .ok n) :
    let found := Chain.search ⟨job.image, job.config.tickLimit⟩ job.config.phases
    let ending := job.amplify wanted
    ending.left = none ∧
    ((∃ best, found = .ok best ∧ n = 0 ∧ ending.stdout =
        "max signal: " ++ toString best.signal ++ " phases: " ++ commaList best.phases ++ "\n") ∨
      ∃ e, found = .error e ∧ n = 1 ∧ ending.stdout = "" ∧
        ending.complaint = "Machine error: " ++ e.message ++ "\n") := by
  intro found ending
  simp only [ending, amplify] at h ⊢
  cases hfound : Chain.search ⟨job.image, job.config.tickLimit⟩ job.config.phases with
  | ok best =>
    rw [hfound] at h
    simp only at h ⊢
    split at h
    · next hall =>
      rw [if_pos hall]
      cases h
      exact ⟨rfl, .inl ⟨best, hfound, rfl, rfl⟩⟩
    · cases h
  | error e =>
    rw [hfound] at h
    simp only at h ⊢
    obtain ⟨hn, hw, hstdout, hcomplaint⟩ := machineFailed_ending h
    refine ⟨?_, .inr ⟨e, hfound, hn, hstdout, hcomplaint⟩⟩
    rw [machineFailed, if_pos hw]

end Job

variable {host : Host} {reader : Config.Reader} {o : Options} {fs : Files}

theorem loadJob_eq_ok_iff {job : Job} : loadJob reader o fs = .ok job ↔
    loadConfig reader o fs = .ok job.config ∧
      Image.load fs (programPath o job.config) = .ok job.image := by
  constructor
  · intro h
    unfold loadJob at h
    split at h
    · cases h
    · cases h
    next hconfig =>
      split at h
      · cases h
      · cases h
      next himage =>
        cases h
        exact ⟨hconfig, himage⟩
  · rintro ⟨hconfig, himage⟩
    simp only [loadJob, hconfig, himage]

/-- **How a run ends that has nothing to run**: with 2 and one complaint, if with a status at all. -/
theorem loadJob_error {ending : Ending} {n : Nat} (h : loadJob reader o fs = .error ending)
    (hstatus : ending.status = .ok n) :
    (∃ e, loadConfig reader o fs = .error (.refused e) ∧
        ending = complain ("Bad config: " ++ e.message)) ∨
      ∃ c e, loadConfig reader o fs = .ok c ∧ Image.load fs (programPath o c) = .error (.refused e) ∧
        ending = complain ("Bad program: " ++ e.message) := by
  unfold loadJob at h
  split at h
  next e hconfig =>
    cases h
    exact .inl ⟨e, hconfig, rfl⟩
  · cases h
    cases hstatus
  next c hconfig =>
    split at h
    next e himage =>
      cases h
      exact .inr ⟨c, e, hconfig, himage, rfl⟩
    · cases h
      cases hstatus
    · cases h

/-- The outcome of a run whose log was opened. -/
theorem runLogged_of_openLog {place : Place} {found : Files} (h : openLog o fs = .ok (place, found))
    (stdin : List Char) :
    let out := runLogged host o fs stdin
    let ending := run host.reader o found stdin
    out.status = ending.status ∧ out.stdout = ending.stdout ∧ out.unread = ending.left.getD stdin ∧
      ∃ log, out.stderr = log ++ ending.complaint ∧ (ending.events = [] → log = "") := by
  intro out ending
  simp only [out, runLogged, h]
  refine ⟨rfl, rfl, rfl, _, rfl, ?_⟩
  intro hevents
  rw [show (run host.reader o found stdin).events = [] from hevents]
  unfold logged
  split <;> rfl

/-- The outcome if what was given is refused: the terminal is as it was, and all that is reported is
why the configuration or the program was refused. -/
structure Refused (reader : Config.Reader) (o : Options) (fs : Files) (text : List Char)
    (out : Outcome) : Prop where
  stdout : out.stdout = ""
  unread : out.unread = text
  stderr : (∃ e, loadConfig reader o fs = .error (.refused e) ∧
      out.stderr = "Bad config: " ++ e.message ++ "\n") ∨
    ∃ c e, loadConfig reader o fs = .ok c ∧ Image.load fs (programPath o c) = .error (.refused e) ∧
      out.stderr = "Bad program: " ++ e.message ++ "\n"

/-- The outcome with status `n` if a machine ran on the terminal: what it wrote is shown, one number a
line, and a line is gone for each read. It halted or it failed, as the status says. -/
structure Conversed (m : Machine) (text : List Char) (n : Nat) (out : Outcome) : Prop where
  terminal : ∃ k, Machine.Runs k m m.run ∧
    out.stdout =
      String.join (((m.exchanges k).filterMap Exchange.sent?).map fun v => toString v ++ "\n") ∧
    out.unread = ((Text.lines text).drop ((m.exchanges k).countP Exchange.asks)).flatten
  halted : n = 0 ↔ m.run.2.status = .halted
  failed : n = 1 ↔ ∃ e, m.run.1 = .error e
  stderr : ∀ e, m.run.1 = .error e →
    ∃ log, out.stderr = log ++ ("Machine error: " ++ e.message ++ "\n")

/-- The outcome with status `n` if the best order was searched: the finding is shown, or nothing. -/
structure Searched (found : Except Fault Chain.Finding) (text : List Char) (n : Nat) (out : Outcome) :
    Prop where
  unread : out.unread = text
  best : n = 0 → ∃ best, found = .ok best ∧ out.stdout =
    "max signal: " ++ toString best.signal ++ " phases: " ++ commaList best.phases ++ "\n"
  failed : n = 1 → out.stdout = "" ∧ ∃ e, found = .error e ∧
    ∃ log, out.stderr = log ++ ("Machine error: " ++ e.message ++ "\n")

section Logged

variable {place : Place} {found : Files} {text : List Char} {n : Nat}

theorem runLogged_refused (hlog : openLog o fs = .ok (place, found)) {ending : Ending}
    (hjob : loadJob host.reader o found = .error ending)
    (hstatus : (runLogged host o fs text).status = .ok n) :
    n = 2 ∧ Refused host.reader o found text (runLogged host o fs text) := by
  obtain ⟨hs, hout, hunread, log, herr, hquiet⟩ := runLogged_of_openLog hlog text
  have hrun : run host.reader o found text = ending := by rw [run, hjob]
  rw [hrun] at hs hout hunread herr hquiet
  rw [hs] at hstatus
  -- nothing was reported on the way, so the complaint is not preceded by a log
  rcases loadJob_error hjob hstatus with ⟨e, hconfig, rfl⟩ | ⟨c, e, hconfig, himage, rfl⟩
  · rw [hquiet rfl, String.empty_append] at herr
    cases hstatus
    exact ⟨rfl, hout, hunread, .inl ⟨e, hconfig, herr⟩⟩
  · rw [hquiet rfl, String.empty_append] at herr
    cases hstatus
    exact ⟨rfl, hout, hunread, .inr ⟨c, e, hconfig, himage, herr⟩⟩

theorem runLogged_conversed (hlog : openLog o fs = .ok (place, found)) {job : Job}
    (hjob : loadJob host.reader o found = .ok job) (hamplify : o.amplify = false)
    (hstatus : (runLogged host o fs text).status = .ok n) :
    (n = 0 ∨ n = 1) ∧ Conversed (job.machine text) text n (runLogged host o fs text) := by
  obtain ⟨hs, hout, hunread, log, herr, -⟩ := runLogged_of_openLog hlog text
  have hrun : run host.reader o found text = { job.interact text o.debug with
      events := (run host.reader o found text).events } := by
    simp only [run, hjob, hamplify]
    rfl
  rw [hrun] at hs hout hunread herr
  obtain ⟨hshown, hleft, hend⟩ := job.interact_ending text o.debug (hs.symm.trans hstatus)
  obtain ⟨k, hruns, hchannel⟩ :=
    Machine.run_channel (m := job.machine text) (Machine.boot_sound _ _ _ _) rfl
  rw [hchannel] at hshown hleft
  rw [hleft] at hunread
  rcases hend with ⟨hhalted, hok, rfl⟩ | ⟨e, herrored, herror, rfl, hcomplaint⟩
  · refine ⟨.inl rfl, ⟨k, hruns, hout.trans hshown, hunread⟩, ?_, ?_, ?_⟩
    · simp [hhalted]
    · simp [hok]
    · simp [hok]
  · refine ⟨.inr rfl, ⟨k, hruns, hout.trans hshown, hunread⟩, ?_, ?_, ?_⟩
    · simp [herrored]
    · simp [herror]
    · intro e' he'
      cases herror.symm.trans he'
      exact ⟨log, by rw [herr, hcomplaint]⟩

theorem runLogged_searched (hlog : openLog o fs = .ok (place, found)) {job : Job}
    (hjob : loadJob host.reader o found = .ok job) (hamplify : o.amplify = true)
    (hstatus : (runLogged host o fs text).status = .ok n) :
    (n = 0 ∨ n = 1) ∧ Searched (Chain.search ⟨job.image, job.config.tickLimit⟩ job.config.phases)
      text n (runLogged host o fs text) := by
  obtain ⟨hs, hout, hunread, log, herr, -⟩ := runLogged_of_openLog hlog text
  have hrun : run host.reader o found text = { job.amplify o.debug with
      events := (run host.reader o found text).events } := by
    simp only [run, hjob, hamplify]
    rfl
  rw [hrun] at hs hout hunread herr
  obtain ⟨hleft, hend⟩ := job.amplify_ending o.debug (hs.symm.trans hstatus)
  have hall : (runLogged host o fs text).unread = text := by
    rw [hunread, hleft]
    rfl
  rcases hend with ⟨best, hbest, rfl, hshown⟩ | ⟨e, he, rfl, hshown, hcomplaint⟩
  · exact ⟨.inl rfl, hall, fun _ => ⟨best, hbest, hout.trans hshown⟩, by simp⟩
  · refine ⟨.inr rfl, hall, by simp, fun _ => ⟨hout.trans hshown, e, he, log, ?_⟩⟩
    rw [herr, hcomplaint]

end Logged

/-- **What a status tells.** The options are right, and the command ends with a status: 0, 1 or 2. If it
is 2, what was given was refused: nothing was shown or read, and one complaint is all that is reported.
Else the configuration and the image were loaded. Without `--amplify` the program has run on the
terminal, has shown what it wrote, and halted if the status is 0 or failed if it is 1. With `--amplify`
nothing was read, and the best order is shown if the status is 0, or the search failed and nothing is
shown if it is 1. -/
theorem execute_status {arguments : List String} (hparse : Options.parse arguments = .ok o)
    {stdin : List Char} {n : Nat} (hstatus : (execute host arguments fs stdin).status = .ok n) :
    let out := execute host arguments fs stdin
    let text := Text.unifyNewlines stdin
    (n = 0 ∨ n = 1 ∨ n = 2) ∧
    ∃ place found, openLog o fs = .ok (place, found) ∧
      (n = 2 → Refused host.reader o found text out) ∧
      (n ≠ 2 → ∃ c image, loadConfig host.reader o found = .ok c ∧
        Image.load found (programPath o c) = .ok image ∧
        (o.amplify = false →
          Conversed (Machine.boot image (.terminal { unread := text }) c.tickLimit c.lenient)
            text n out) ∧
        (o.amplify = true → Searched (Chain.search ⟨image, c.tickLimit⟩ c.phases) text n out)) := by
  intro out text
  have hout : execute host arguments fs stdin = runLogged host o fs text := by
    simp only [execute, hparse]
    rfl
  simp only [out]
  rw [hout] at hstatus ⊢
  cases hlog : openLog o fs with
  | error cause =>
    rw [runLogged, hlog] at hstatus
    cases hstatus
  | ok opened =>
    obtain ⟨place, found⟩ := opened
    cases hjob : loadJob host.reader o found with
    | error ending =>
      obtain ⟨rfl, hrefused⟩ := runLogged_refused hlog hjob hstatus
      exact ⟨by simp, place, found, rfl, fun _ => hrefused, by simp⟩
    | ok job =>
      obtain ⟨hconfig, himage⟩ := loadJob_eq_ok_iff.1 hjob
      cases hamplify : o.amplify with
      | false =>
        obtain ⟨hn, hconversed⟩ := runLogged_conversed hlog hjob hamplify hstatus
        exact ⟨by omega, place, found, rfl, by omega, fun _ =>
          ⟨job.config, job.image, hconfig, himage, fun _ => hconversed, by simp⟩⟩
      | true =>
        obtain ⟨hn, hsearched⟩ := runLogged_searched hlog hjob hamplify hstatus
        exact ⟨by omega, place, found, rfl, by omega, fun _ =>
          ⟨job.config, job.image, hconfig, himage, by simp, fun _ => hsearched⟩⟩

/-- A program that writes a number and then reads a line that is none: the number stays shown. And a
program that is not there, which leaves the line where it is. -/
theorem execute_status_bad_line :
    let host : Host := { reader := fun _ => .error .notUtf8 }
    let fs : Files := ⟨[(⟨.above 0, ["p"]⟩, .file [49, 48, 52, 44, 53, 44, 51, 44, 48, 10])]⟩
    let m := Machine.boot [104, 5, 3, 0] (.terminal { unread := ['x'] }) 1000000 false
    (execute host ["p"] fs ['x']).status = .ok 1 ∧
      Conversed m ['x'] 1 (execute host ["p"] fs ['x']) ∧
      (execute host ["q"] fs ['x']).status = .ok 2 ∧ (execute host ["q"] fs ['x']).unread = ['x'] := by
  intro host fs m
  let found : Files := putText fs ⟨.above 0, ["processor.log"]⟩ ""
  have hlog : openLog { program := some "p" } fs = .ok (⟨.above 0, ["processor.log"]⟩, found) := rfl
  have hconfig : loadConfig host.reader { program := some "p" } found = .ok Config.default := rfl
  have himage : Image.load found "p" = .ok [104, 5, 3, 0] := by
    have hline : firstLine? [49, 48, 52, 44, 53, 44, 51, 44, 48, 10] = some "104,5,3,0\n".toList := by
      rw [firstLine?, firstLineFrom, dif_neg (by decide)]
      rfl
    have hfile : found.find? "p" = some (.file [49, 48, 52, 44, 53, 44, 51, 44, 48, 10]) := rfl
    simp only [Image.load, hfile, hline]
    rfl
  have hjob : loadJob host.reader { program := some "p" } found = .ok ⟨Config.default, [104, 5, 3, 0]⟩ :=
    loadJob_eq_ok_iff.2 ⟨hconfig, himage⟩
  have h1 : (execute host ["p"] fs ['x']).status = .ok 1 := by
    show (runLogged host { program := some "p" } fs ['x']).status = _
    simp only [runLogged, hlog, run, hjob]
    rfl
  have h2 : (execute host ["q"] fs ['x']).status = .ok 2 := rfl
  obtain ⟨-, place, found', hlog', -, hrun⟩ :=
    execute_status (show Options.parse ["p"] = .ok { program := some "p" } from rfl) h1
  obtain ⟨-, _, _, -, hrefused, -⟩ :=
    execute_status (show Options.parse ["q"] = .ok { program := some "q" } from rfl) h2
  cases hlog.symm.trans hlog'
  obtain ⟨c, image, hc, hi, hconversed, -⟩ := hrun (by decide)
  cases hconfig.symm.trans hc
  cases himage.symm.trans hi
  exact ⟨h1, hconversed rfl, h2, (hrefused rfl).unread⟩

end CommandLine

end Intcode
