import Intcode.Proofs.BestOrder
import Intcode.Proofs.LayeredConfig
import Intcode.Proofs.Stages
import Intcode.Proofs.WrittenFaults

/-!
# What a configuration is good for

A table that is read as a configuration may hold anything, but the configuration has
settings of the right types that pass the checks, and all other entries of the table.
That is enough for what comes after: a search under it has orders to try, so it fails
only where a stage does, and a machine under it executes at least one instruction
before the limit stops it.

* `Config.keys_toTable`, `Config.get?_toTable`: the entries that are kept.
* `Config.absent_toTable`: settings that are not given.
* `Chain.search_fails`: why a search fails.
* `Config.ofTable_enough`: all of it, for a configuration that has been read.
* `Config.search_unwritten`: a silent stage is not reported if its phase is too long.
-/

namespace Intcode

namespace Table

/-- What is found under a key stays when entries under other texts are left out. -/
theorem get?_without {t : Table} {names : List String} {key : Scalar}
    (h : ∀ name ∈ names, key ≠ .text name) : (t.without names).get? key = t.get? key := by
  -- an entry that the key finds is not under one of the texts
  have hkept : ∀ k : Scalar, k.sameKey key = true → ∀ name ∈ names, k ≠ .text name := by
    rintro k hk name hname rfl
    exact h name hname (by simpa using hk)
  unfold get? without
  rw [List.find?_filter]
  congr 2
  funext e
  cases hsame : e.1.sameKey key with
  | false => simp
  | true => simpa using hkept e.1 hsame

/-- The keys that are left. -/
theorem mem_keys_without {t : Table} {names : List String} {key : Scalar} :
    key ∈ (t.without names).map Prod.fst ↔
      key ∈ t.map Prod.fst ∧ ∀ name ∈ names, key ≠ .text name := by
  simp only [without, List.mem_map, List.mem_filter, Scalar.sameKey_text, Bool.not_eq_true',
    List.any_eq_false, decide_eq_true_eq]
  constructor
  · rintro ⟨e, ⟨he, hnames⟩, rfl⟩
    exact ⟨⟨e, he, rfl⟩, hnames⟩
  · rintro ⟨⟨e, he, rfl⟩, hnames⟩
    exact ⟨e, ⟨he, hnames⟩, rfl⟩

end Table

namespace Config

variable {d : Table} {c : Config}

/-- The entries that are no settings are those of the table. -/
theorem without_toTable (h : ofTable d = .ok c) :
    c.toTable.without settingNames = d.without settingNames := (alike_toTable h).extra

/-- **No entry is lost**, and settings are all that is added. -/
theorem keys_toTable (h : ofTable d = .ok c) (key : Scalar) :
    key ∈ c.toTable.map Prod.fst ↔
      key ∈ d.map Prod.fst ∨ ∃ name ∈ settingNames, key = .text name := by
  obtain ⟨-, -, -, -, hextra, -⟩ := ofTable_eq_ok h
  have hkeys : c.toTable.map Prod.fst = settingNames.map .text ++ c.extra.map Prod.fst := by
    rw [toTable, List.map_append]
    rfl
  have hnamed : key ∈ settingNames.map Scalar.text ↔ ∃ name ∈ settingNames, key = .text name := by
    simp only [List.mem_map, eq_comm]
  rw [hkeys, List.mem_append, hnamed, ← hextra, Table.mem_keys_without]
  by_cases hsetting : ∃ name ∈ settingNames, key = .text name
  · exact iff_of_true (.inl hsetting) (.inr hsetting)
  · have hother : ∀ name ∈ settingNames, key ≠ .text name :=
      fun name hname heq => hsetting ⟨name, hname, heq⟩
    constructor
    · rintro (hnamed | ⟨hkept, -⟩)
      · exact .inr hnamed
      · exact .inl hkept
    · rintro (hkept | hnamed)
      · exact .inr ⟨hkept, hother⟩
      · exact .inl hnamed

/-- **Entries that are no settings are kept** as they are. -/
theorem get?_toTable (h : ofTable d = .ok c) {key : Scalar}
    (hkey : ∀ name ∈ settingNames, key ≠ .text name) : c.toTable.get? key = d.get? key := by
  rw [← Table.get?_without hkey, without_toTable h, Table.get?_without hkey]

/-- The settings in the table of a configuration, each of its own type. -/
theorem settings_toTable (c : Config) :
    c.toTable.get? (.text "program_path") = some (.text c.programPath) ∧
      c.toTable.get? (.text "tick_limit") = some (.int c.tickLimit) ∧
      c.toTable.get? (.text "phase_settings") = some (.list (c.phases.map .int)) ∧
      c.toTable.get? (.text "lenient_log") = some (.bool c.lenient) := ⟨rfl, rfl, rfl, rfl⟩

/-- **A setting that is not given has its default.** -/
theorem absent_toTable (h : ofTable d = .ok c) {name : String} (hname : name ∈ settingNames)
    (habsent : d.get? (.text name) = none) :
    c.toTable.get? (.text name) = default.toTable.get? (.text name) := by
  obtain ⟨hpath, hlimit, hphases, hlenient, -⟩ := ofTable_eq_ok h
  obtain ⟨epath, elimit, ephases, elenient⟩ := settings_toTable c
  simp only [settingNames, List.mem_cons, List.not_mem_nil, or_false] at hname
  rcases hname with rfl | rfl | rfl | rfl
  · rw [habsent] at hpath
    rw [epath, ← Except.ok.inj hpath]
    rfl
  · rw [habsent] at hlimit
    rw [elimit, ← Except.ok.inj hlimit]
    rfl
  · rw [habsent] at hphases
    rw [ephases, ← Except.ok.inj hphases]
    rfl
  · rw [habsent] at hlenient
    rw [elenient, ← hlenient]
    rfl

end Config

namespace Chain

variable {c : Chain} {pool : List Int}

/-- **A search fails where a stage does**: its machine fails, or it is silent. -/
theorem search_fails (h : 2 ≤ pool.length) {cause : Fault} (he : c.search pool = .error cause) :
    ∃ (stage : Nat) (phase : Int), stage < pool.length ∧ phase ∈ pool ∧
      ((∃ signal, (c.stageMachine phase signal).run.1 = .error cause) ∨
        cause = .silentStage stage phase) := by
  obtain ⟨order, hperm, hrun⟩ := search_eq_error h he
  rw [(run_eq_feed (hperm.length_eq ▸ h)).1, feed_eq_error_iff] at hrun
  obtain ⟨i, hi, signals, -, -, hfails⟩ := hrun
  refine ⟨i, order[i], hperm.length_eq ▸ hi, hperm.mem_iff.1 (List.getElem_mem hi), ?_⟩
  rcases runStage_eq_error_iff.1 (fails_iff.2 hfails) with hmachine | ⟨hsilent, -⟩
  · exact .inl ⟨signals i, hmachine⟩
  · rw [Nat.zero_add] at hsilent
    exact .inr hsilent

/-- What the machine of a stage raises is a fault of its family, if the limit and the size of the program
can be written. -/
theorem kind_of_stageMachine_error (hlimit : Numeral.writable c.tickLimit = true)
    (hsize : Numeral.writable c.program.length = true) {phase signal : Int} {cause : Fault}
    (h : (c.stageMachine phase signal).run.1 = .error cause) : cause.kind = cause.family := by
  have hpointer : Numeral.writable (c.stageMachine phase signal).run.2.ip = true := by
    obtain ⟨n, -, hruns⟩ := Machine.exists_runs (c.stageMachine phase signal)
    rw [hruns.snd_eq_after]
    exact Machine.writable_ip c.program _ c.tickLimit true hsize n
  rcases Machine.writable_of_run_error c.program [phase, signal] c.tickLimit true h with hw | hlong
  · exact Fault.kind_of_writable hw
  · have hnone : Numeral.allWritable [c.tickLimit, (c.stageMachine phase signal).run.2.ip] = false :=
      hlong
    rw [Numeral.allWritable, List.all_cons, List.all_cons, hlimit, hpointer] at hnone
    cases hnone

/-- A limit that is a number is no obstacle. -/
theorem searchLoose_int (image : List Int) (limit : Int) (h : 2 ≤ pool.length) :
    searchLoose image (.int limit) pool = (search ⟨image, limit⟩ pool).mapError .fault := by
  have hcheck : checkPhases pool = .ok () := if_neg (by omega)
  rw [searchLoose, hcheck]
  rfl

/-- **How a search ends** under a limit that is a number, if there are phases enough: with a finding,
with the fault of the machine of a stage, or with a stage that is silent. -/
theorem searchLoose_ends (image : List Int) (limit : Int) (h : 2 ≤ pool.length) :
    (∃ best, searchLoose image (.int limit) pool = .ok best) ∨
    (∃ cause, searchLoose image (.int limit) pool = .error (.fault cause) ∧
      (cause.family.ofProgram ∨ cause.family = .tickLimit ∨ cause.family = .exhausted) ∧
      ∃ phase ∈ pool, ∃ signal, (stageMachine ⟨image, limit⟩ phase signal).run.1 = .error cause) ∨
    ∃ (stage : Nat) (phase : Int), stage < pool.length ∧ phase ∈ pool ∧
      searchLoose image (.int limit) pool = .error (.fault (.silentStage stage phase)) := by
  rw [searchLoose_int image limit h]
  cases hsearch : search ⟨image, limit⟩ pool with
  | ok best => exact .inl ⟨best, rfl⟩
  | error cause =>
    obtain ⟨stage, phase, hstage, hphase, ⟨signal, hmachine⟩ | rfl⟩ := search_fails h hsearch
    · exact .inr (.inl ⟨cause, rfl, Machine.run_queue_error ⟨_, rfl⟩ hmachine, phase, hphase, signal,
        hmachine⟩)
    · exact .inr (.inr ⟨stage, phase, hstage, hphase, rfl⟩)

end Chain

namespace Config

variable {d : Table} {c : Config}

/-- **What a configuration that has been read is good for.** Its table has the keys of the table that
it was read from and those of the settings; entries that are no settings are as they were; settings
are of their types and pass all checks, and those that were not given have their defaults. So a search
under it gives a finding, or the fault of a machine of one of its stages, or reports that a stage is
silent, unless its number or its phase is too long to be written; there are never too few phases. The
fault of a machine is raised as such, if the limit and the size of the image can be written. And a
machine under it that is stopped by the limit has executed at least one instruction. -/
theorem ofTable_enough (h : ofTable d = .ok c) :
    (∀ key, key ∈ c.toTable.map Prod.fst ↔
      key ∈ d.map Prod.fst ∨ ∃ name ∈ settingNames, key = .text name) ∧
    (∀ key, (∀ name ∈ settingNames, key ≠ .text name) → c.toTable.get? key = d.get? key) ∧
    (c.toTable.get? (.text "program_path") = some (.text c.programPath) ∧ c.programPath ≠ "") ∧
    (c.toTable.get? (.text "tick_limit") = some (.int c.tickLimit) ∧ 1 ≤ c.tickLimit) ∧
    (c.toTable.get? (.text "phase_settings") = some (.list (c.phases.map .int)) ∧
      2 ≤ c.phases.length ∧ c.phases.Nodup) ∧
    c.toTable.get? (.text "lenient_log") = some (.bool c.lenient) ∧
    (∀ name ∈ settingNames, d.get? (.text name) = none →
      c.toTable.get? (.text name) = default.toTable.get? (.text name)) ∧
    (∀ image : List Int, let found := Chain.searchLoose image (.int c.tickLimit) c.phases
      (∃ best, found = .ok best) ∨
      (∃ cause, found = .error (.fault cause) ∧
        (cause.family.ofProgram ∨ cause.family = .tickLimit ∨ cause.family = .exhausted) ∧
        (Numeral.writable c.tickLimit = true → Numeral.writable image.length = true →
          cause.kind = cause.family) ∧
        ∃ phase ∈ c.phases, ∃ signal,
          (Chain.stageMachine ⟨image, c.tickLimit⟩ phase signal).run.1 = .error cause) ∨
      ∃ (stage : Nat) (phase : Int), stage < c.phases.length ∧ phase ∈ c.phases ∧
        found = .error (.fault (.silentStage stage phase)) ∧ (Fault.silentStage stage phase).kind =
          if Numeral.allWritable [stage, phase] then .stage else .unwritten) ∧
    ∀ (image : List Int) (channel : Channel),
      Machine.bootUnder image channel c.toTable = .ok (.boot image channel c.tickLimit c.lenient) ∧
      ∀ (lenient : Bool) (e : Fault),
        (Machine.boot image channel c.tickLimit lenient).run.1 = .error e → e.kind = .tickLimit →
        1 ≤ (Machine.boot image channel c.tickLimit lenient).run.2.tick := by
  obtain ⟨-, -, -, -, -, hvalid⟩ := ofTable_eq_ok h
  obtain ⟨epath, elimit, ephases, elenient⟩ := settings_toTable c
  refine ⟨keys_toTable h, fun key => get?_toTable h, ⟨epath, hvalid.path⟩, ⟨elimit, hvalid.limit⟩,
    ⟨ephases, hvalid.phases, hvalid.distinct⟩, elenient, fun name => absent_toTable h, ?_, ?_⟩
  · intro image
    rcases Chain.searchLoose_ends image c.tickLimit hvalid.phases with
      hbest | ⟨cause, hfound, hfamily, phase, hphase, signal, hmachine⟩ | ⟨stage, phase, hs, hp, hfound⟩
    · exact .inl hbest
    · exact .inr (.inl ⟨cause, hfound, hfamily,
        fun hlimit hsize => Chain.kind_of_stageMachine_error hlimit hsize hmachine,
        phase, hphase, signal, hmachine⟩)
    · exact .inr (.inr ⟨stage, phase, hs, hp, hfound, rfl⟩)
  · intro image channel
    refine ⟨rfl, ?_⟩
    intro lenient e he hk
    have hfamily := ((Fault.kind_eq_iff (by simp)).1 hk).1
    have hreached : c.tickLimit ≤ _ := Machine.run_limit he hfamily
    have hlimit := hvalid.limit
    omega

/-- A limit that is a truth value, phases that are the keys of a table, and an entry that is no
setting: the limit lets one instruction of the program through. -/
theorem ofTable_enough_loose :
    let d : Table := [(.text "tick_limit", .bool true), (.int 1, .text "kept"),
      (.text "phase_settings", .table [(.int 5, .null), (.bool true, .null)])]
    let c : Config := ⟨"input.txt", 1, [5, 1], false, [(.int 1, .text "kept")]⟩
    let m := Machine.boot [104, 7, 99] (.queue (.ofInputs [])) c.tickLimit c.lenient
    ofTable d = .ok c ∧ c.toTable.get? (.int 1) = some (.text "kept") ∧
      c.toTable.get? (.text "program_path") = default.toTable.get? (.text "program_path") ∧
      m.run.1 = .error (.tickLimit 1 2) ∧ 1 ≤ m.run.2.tick := by
  intro d c m
  have h : ofTable d = .ok c := by rfl
  have hstopped : m.run.1 = .error (.tickLimit 1 2) := by rfl
  obtain ⟨-, hkept, -, -, -, -, habsent, -, hruns⟩ := ofTable_enough h
  refine ⟨h, (hkept (.int 1) (by decide)).trans rfl, habsent _ (by decide) rfl, hstopped, ?_⟩
  exact (hruns _ _).2 _ _ hstopped rfl

/-- Phases that are given as they are. -/
theorem ofTable_phases {phases : List Int} (hlen : 2 ≤ phases.length) (hdistinct : phases.Nodup) :
    ofTable [(.text "phase_settings", .list (phases.map .int))] =
      .ok { default with phases := phases } :=
  ofTable_insert_phases (t := []) rfl (toInts_list phases) hlen hdistinct

/-- **A silent stage is not reported if its phase is too long to be written**: with a phase of one
digit more, what is raised is no fault of a stage. -/
theorem search_unwritten :
    let phases : List Int := [(Nat.pow 10 Numeral.maxDigits : Nat), 1]
    let d : Table := [(.text "phase_settings", .list (phases.map .int))]
    let c : Config := { default with phases := phases }
    ofTable d = .ok c ∧ ∃ cause,
      Chain.searchLoose [99] (.int c.tickLimit) c.phases = .error (.fault cause) ∧
        cause.kind = .unwritten := by
  have hlong := Numeral.writable_pow
  have hne : ((Nat.pow 10 Numeral.maxDigits : Nat) : Int) ≠ 1 := by
    intro heq
    rw [heq] at hlong
    cases hlong
  generalize ((Nat.pow 10 Numeral.maxDigits : Nat) : Int) = phase at hlong hne
  intro phases d c
  have hlen : 2 ≤ phases.length := Nat.le_refl _
  have hdistinct : phases.Nodup := List.nodup_cons.2 ⟨by simpa using hne, by simp⟩
  have hsilent : Chain.search ⟨[99], c.tickLimit⟩ c.phases = .error (.silentStage 0 phase) := by rfl
  refine ⟨ofTable_phases hlen hdistinct, .silentStage 0 phase, ?_, ?_⟩
  · rw [Chain.searchLoose_int _ _ hlen, hsilent]
    rfl
  · rw [Fault.kind_eq_unwritten_iff]
    simp [Fault.writable, Fault.numbers, Numeral.allWritable, hlong]

end Config

end Intcode
