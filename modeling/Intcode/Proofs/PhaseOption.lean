import Intcode.CommandLine.Options

/-!
# Phases on the command line

Phases can be put in front of arguments that have none: all else that the arguments ask
for stays as it is. They are put there as one argument, behind an equals sign, or as two
if they do not look like an option.

* `classify_attached`: an option with its value behind an equals sign.
* `Options.read_withPhases`: arguments without phases leave those that there are.
* `classify_unknown`: what is taken for an option and is none.
* `Options.parse_phases_attached`, `Options.parse_phases_word`: phases in front of arguments.
* `Options.parse_phases_unknown`: phases there that look like an option.
-/

namespace Intcode.CommandLine

namespace Flag

/-- The name of an option starts with two dashes, and no equals sign is in it. -/
theorem toList_name (flag : Flag) :
    ∃ letters, flag.name.toList = '-' :: '-' :: letters ∧ '=' ∉ flag.name.toList := by
  cases flag <;> exact ⟨_, rfl, by decide⟩

theorem named?_name (flag : Flag) : named? flag.name = some flag := by
  cases flag <;> rfl

/-- What has the name of an option starts with two dashes or is the letter for help behind one dash,
and no equals sign is in it. -/
theorem of_named?_eq_some {s : String} {flag : Flag} (h : named? s = some flag) :
    (∃ second letters, s.toList = '-' :: second :: letters ∧ (second = '-' ∨ second = 'h')) ∧
      '=' ∉ s.toList := by
  unfold named? at h
  split at h
  · next hs =>
    rw [hs]
    exact ⟨⟨'h', [], rfl, .inr rfl⟩, by decide⟩
  · have hname := List.find?_some h
    rw [decide_eq_true_eq] at hname
    obtain ⟨letters, hletters, hequals⟩ := flag.toList_name
    rw [← hname]
    exact ⟨⟨'-', letters, hletters, .inl rfl⟩, hequals⟩

end Flag

theorem splitEquals_append {name : List Char} (h : '=' ∉ name) (value : List Char) :
    splitEquals (name ++ '=' :: value) = (name, some value) := by
  have hname : ∀ c ∈ name, decide (c ≠ '=') = true := fun c hc =>
    decide_eq_true (ne_of_mem_of_not_mem hc h)
  unfold splitEquals
  rw [List.dropWhile_append_of_pos hname, List.takeWhile_append_of_pos hname]
  simp

theorem splitEquals_of_not_mem {s : List Char} (h : '=' ∉ s) : splitEquals s = (s, none) := by
  have hname : ∀ c ∈ s, decide (c ≠ '=') = true := fun c hc =>
    decide_eq_true (ne_of_mem_of_not_mem hc h)
  have hall : (s ++ []).dropWhile (· ≠ '=') = [] := List.dropWhile_append_of_pos hname
  rw [List.append_nil] at hall
  simp only [splitEquals, hall]

/-- **An option with its value behind an equals sign**, whatever that value is. -/
theorem classify_attached (flag : Flag) (value : String) :
    classify (flag.name ++ "=" ++ value) = .ok (.option flag (some value)) := by
  obtain ⟨letters, hletters, hequals⟩ := flag.toList_name
  have hlist : (flag.name ++ "=" ++ value).toList = flag.name.toList ++ '=' :: value.toList := by
    simp
  have hnone : Flag.named? (flag.name ++ "=" ++ value) = none := by
    cases hnamed : Flag.named? (flag.name ++ "=" ++ value) with
    | none => rfl
    | some other =>
      refine absurd ?_ (Flag.of_named?_eq_some hnamed).2
      rw [hlist]
      simp
  unfold classify
  simp only [hlist, splitEquals_append hequals, hnone, String.ofList_toList, Flag.named?_name]
  rw [hletters]
  simp

/-- What does not start with a dash is a word. -/
theorem classify_word {s : String} (h : ∀ letters, s.toList ≠ '-' :: letters) :
    classify s = .ok (.word s) := by
  have hnone : Flag.named? s = none := by
    cases hnamed : Flag.named? s with
    | none => rfl
    | some other =>
      obtain ⟨second, letters, hletters, -⟩ := (Flag.of_named?_eq_some hnamed).1
      exact absurd hletters (h _)
  unfold classify
  simp only [hnone]
  split
  · contradiction
  · exact absurd ‹s.toList = _› (h _)
  · exact absurd ‹s.toList = _› (h _)
  · exact absurd ‹s.toList = _› (h _)
  · exact absurd ‹s.toList = _› (h _)
  · rfl

/-- **What is taken for an option and is none**: it starts with one dash, and is no negative number. -/
theorem classify_unknown {s : String} {second : Char} {letters : List Char}
    (hs : s.toList = '-' :: second :: letters) (hdash : second ≠ '-') (hhelp : second ≠ 'h')
    (hequals : '=' ∉ s.toList) (hspace : ' ' ∉ s.toList)
    (hnumber : isNegativeNumber s.toList = false) : classify s = .ok (.unknown s) := by
  have hnone : Flag.named? s = none := by
    cases hnamed : Flag.named? s with
    | none => rfl
    | some other =>
      obtain ⟨second', letters', hletters, hsecond⟩ := (Flag.of_named?_eq_some hnamed).1
      rw [hs] at hletters
      cases hletters
      rcases hsecond with rfl | rfl
      · exact absurd rfl hdash
      · exact absurd rfl hhelp
  have hword : (isNegativeNumber s.toList || s.toList.contains ' ') = false := by
    rw [hnumber, Bool.false_or, ← Bool.not_eq_true, List.contains_iff_mem]
    exact hspace
  unfold classify
  simp only [splitEquals_of_not_mem hequals, String.ofList_toList, hnone, hword]
  rw [hs]
  simp [hdash, hhelp]

namespace Options

/-- The options with other phases. -/
def withPhases (o : Options) (phases : Given) : Options := { o with phases := phases }

/-- How far the arguments were read, with other phases. -/
def Progress.withPhases (p : Progress) (phases : Given) : Progress :=
  { p with options := p.options.withPhases phases }

/-- An option without a value does nothing to the phases. -/
theorem set_withPhases (o : Options) (phases : Given) (flag : Flag) :
    (o.set flag).phases = o.phases ∧
      (o.withPhases phases).set flag = (o.set flag).withPhases phases := by
  cases flag <;> exact ⟨rfl, rfl⟩

/-- If there are no phases once a value is given to an option, it is another option. -/
theorem assign_withPhases {o : Options} {value : Given} (hvalue : value ≠ .absent) {flag : Flag}
    (h : (o.assign value flag).phases = .absent) (phases : Given) :
    o.phases = .absent ∧
      (o.withPhases phases).assign value flag = (o.assign value flag).withPhases phases := by
  cases flag with
  | phases => exact absurd h hvalue
  | _ => exact ⟨h, rfl⟩

/-- An option without a value is set, whatever follows it. -/
theorem read_set {p : Progress} {flag : Flag} (hhelp : flag ≠ .help)
    (hvalue : ¬ flag.takesValue = true) (rest : List Argument) :
    read p (.option flag none :: rest) = read { p with options := p.options.set flag } rest := by
  rw [read.eq_def]
  cases flag with
  | help => exact absurd rfl hhelp
  | config | phases | logfile => exact absurd rfl hvalue
  | amplify | debug | console => rfl

/-- Arguments without phases are read in the same way whatever phases there are. -/
theorem read_withPhases {p p' : Progress} {arguments : List Argument} (phases : Given)
    (h : read p arguments = .ok p') (habsent : p'.options.phases = .absent) :
    p.options.phases = .absent ∧
      read (p.withPhases phases) arguments = .ok (p'.withPhases phases) := by
  fun_induction read p arguments with
  | case1 p =>
    cases h
    exact ⟨habsent, rfl⟩
  | case2 p text rest ih => exact ih h
  | case3 => cases h
  | case4 => cases h
  | case5 p flag rest value hvalue ih =>
    rw [if_pos hvalue] at h
    obtain ⟨hphases, hread⟩ := ih h
    have hgiven : Given.ofAttached value ≠ .absent := by
      unfold Given.ofAttached
      split <;> exact Given.noConfusion
    obtain ⟨hold, hassign⟩ := assign_withPhases hgiven hphases phases
    refine ⟨hold, ?_⟩
    rw [read, if_pos hvalue]
    exact hassign ▸ hread
  | case6 p flag rest value hvalue =>
    rw [if_neg hvalue] at h
    cases h
  | case7 p flag hvalue value rest hhelp ih =>
    rw [if_pos hvalue] at h
    obtain ⟨hphases, hread⟩ := ih h
    obtain ⟨hold, hassign⟩ := assign_withPhases Given.noConfusion hphases phases
    refine ⟨hold, ?_⟩
    rw [read, if_pos hvalue]
    · exact hassign ▸ hread
    · exact hhelp
  | case8 p flag rest hvalue hhelp hword =>
    rw [if_pos hvalue] at h
    split at h
    · exact (hword _ _ rfl).elim
    · cases h
  | case9 p flag rest hvalue hhelp ih =>
    rw [if_neg hvalue] at h
    obtain ⟨hphases, hread⟩ := ih h
    obtain ⟨hold, hset⟩ := p.options.set_withPhases phases flag
    refine ⟨hold.symm.trans hphases, ?_⟩
    rw [read_set hhelp hvalue]
    exact hset ▸ hread
  | case10 p hawaits text rest ih =>
    obtain ⟨hphases, hread⟩ := ih h
    refine ⟨hphases, ?_⟩
    rw [read]
    exact (if_pos hawaits).trans hread
  | case11 p rest hawaits hword ih =>
    obtain ⟨hphases, hread⟩ := ih h
    refine ⟨hphases, ?_⟩
    rw [read]
    · exact (if_pos hawaits).trans hread
    · exact hword
  | case12 p rest hawaits ih =>
    obtain ⟨hphases, hread⟩ := ih h
    refine ⟨hphases, ?_⟩
    rw [read.eq_def]
    exact (if_neg hawaits).trans hread
  | case13 p text hawaits p₁ rest ih =>
    obtain ⟨hphases, hread⟩ := ih h
    refine ⟨hphases, ?_⟩
    rw [read]
    exact (if_pos hawaits).trans hread
  | case14 p text hawaits p₁ rest hseparator ih =>
    obtain ⟨hphases, hread⟩ := ih h
    refine ⟨hphases, ?_⟩
    rw [read.eq_def]
    refine (if_pos hawaits).trans ?_
    split
    · exact (hseparator _ rfl).elim
    · exact hread
  | case15 p text rest hawaits ih =>
    obtain ⟨hphases, hread⟩ := ih h
    refine ⟨hphases, ?_⟩
    rw [read.eq_def]
    exact (if_neg hawaits).trans hread

theorem classifyAll_cons {argument : String} (hargument : argument ≠ "--") {a : Argument}
    (h : classify argument = .ok a) {rest : List String} {as : List Argument}
    (hrest : classifyAll rest = .ok as) : classifyAll (argument :: rest) = .ok (a :: as) := by
  rw [classifyAll, h, hrest]
  · rfl
  · exact hargument

theorem parse_of_classifyAll {arguments : List String} {as : List Argument}
    (h : classifyAll arguments = .ok as) :
    parse arguments = (read {} as).bind fun p =>
      if p.extras.isEmpty then .ok p.options else .error (.unrecognized p.extras.reverse) := by
  rw [parse, h]
  rfl

/-- Arguments ask for options if they are read to the end and nothing is left over. -/
theorem parse_eq_ok_iff {arguments : List String} {o : Options} : parse arguments = .ok o ↔
    ∃ as p, classifyAll arguments = .ok as ∧ read {} as = .ok p ∧ p.extras = [] ∧
      p.options = o := by
  constructor
  · intro h
    cases hclassify : classifyAll arguments with
    | error stop =>
      rw [parse, hclassify] at h
      cases h
    | ok as =>
      rw [parse_of_classifyAll hclassify] at h
      cases hread : read {} as with
      | error stop =>
        rw [hread] at h
        cases h
      | ok p =>
        rw [hread, Except.bind] at h
        split at h
        · next hextras =>
          cases h
          exact ⟨as, p, rfl, hread, List.isEmpty_iff.1 hextras, rfl⟩
        · cases h
  · rintro ⟨as, p, hclassify, hread, hextras, rfl⟩
    rw [parse_of_classifyAll hclassify, hread]
    exact if_pos (List.isEmpty_iff.2 hextras)

/-- Phases that are read before all else are all that is added. -/
theorem parse_withPhases (front : List String) {arguments : List String} {o : Options} {phases : Given}
    (h : parse arguments = .ok o) (habsent : o.phases = .absent)
    (hfront : ∀ as, classifyAll arguments = .ok as →
      ∃ as', classifyAll (front ++ arguments) = .ok as' ∧
        read {} as' = read (Progress.withPhases {} phases) as) :
    parse (front ++ arguments) = .ok (o.withPhases phases) := by
  obtain ⟨as, p, hclassify, hread, hextras, rfl⟩ := parse_eq_ok_iff.1 h
  obtain ⟨as', hclassify', hsame⟩ := hfront as hclassify
  obtain ⟨-, hread'⟩ := read_withPhases phases hread habsent
  exact parse_eq_ok_iff.2 ⟨as', _, hclassify', hsame.trans hread', hextras, rfl⟩

/-- **Phases behind an equals sign**, in front of arguments that have none. -/
theorem parse_phases_attached {arguments : List String} {o : Options}
    (h : parse arguments = .ok o) (habsent : o.phases = .absent) {value : String}
    (hvalue : value ≠ "--") :
    parse (("--phases=" ++ value) :: arguments) = .ok { o with phases := .value value } := by
  refine parse_withPhases [_] h habsent fun as has =>
    ⟨.option .phases (some value) :: as, ?_, ?_⟩
  · refine classifyAll_cons ?_ (classify_attached .phases value) has
    intro heq
    have hequals : '=' ∈ (Flag.phases.name ++ "=" ++ value).toList := by simp
    rw [heq] at hequals
    exact absurd hequals (by decide)
  · rw [read, if_pos (by decide), Given.ofAttached, if_neg hvalue]
    rfl

/-- **Phases as the next word**, in front of arguments that have none. -/
theorem parse_phases_word {arguments : List String} {o : Options}
    (h : parse arguments = .ok o) (habsent : o.phases = .absent) {value : String}
    (hvalue : ∀ letters, value.toList ≠ '-' :: letters) :
    parse ("--phases" :: value :: arguments) = .ok { o with phases := .value value } := by
  refine parse_withPhases [_, _] h habsent fun as has =>
    ⟨.option .phases none :: .word value :: as, ?_, ?_⟩
  · refine classifyAll_cons (by decide) (by rfl) (classifyAll_cons ?_ (classify_word hvalue) has)
    rintro rfl
    exact hvalue _ rfl
  · rw [read, if_pos (by decide)]
    · rfl
    · exact Flag.noConfusion

/-- **Phases that look like an option** are not the value of one. -/
theorem parse_phases_unknown {arguments : List String} {o : Options}
    (h : parse arguments = .ok o) {value : String} (hvalue : value ≠ "--")
    (hunknown : classify value = .ok (.unknown value)) :
    parse ("--phases" :: value :: arguments) = .error (.valueMissing .phases) := by
  obtain ⟨as, p, hclassify, -⟩ := parse_eq_ok_iff.1 h
  have hall : classifyAll ("--phases" :: value :: arguments) =
      .ok (.option .phases none :: .unknown value :: as) :=
    classifyAll_cons (by decide) (by rfl) (classifyAll_cons hvalue hunknown hclassify)
  rw [parse_of_classifyAll hall]
  rfl

end Options

end Intcode.CommandLine
