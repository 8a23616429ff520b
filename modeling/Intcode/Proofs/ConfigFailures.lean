import Intcode.Proofs.LayeredConfig

/-!
# How the reading of a configuration fails

A table that cannot be read as a configuration is refused, with the reason in the
refusal. There are two exceptions, and no others. An infinity has no whole part, and
this is not reported as a refusal: it comes out where the conversions meet an infinity
before anything else that they reject. And phases that collide are not reported if one
of them is too long to be written.

* `mapM_eq_error_iff`: members are converted up to the first that fails.
* `Value.toInt_eq_infinity_iff`, `Value.toInts_eq_infinity_iff`: where an infinity is met.
* `Config.ofEntries_cases`, `Config.check_cases`: how the conversions and the checks end.
* `Config.load_outcomes`: how the reading of a table ends.
* `Config.load_unrefused`: tables that are neither read nor refused.
-/

namespace Intcode

/-- **Members are converted up to the first that fails.** -/
theorem mapM_eq_error_iff {α β ε : Type} {f : α → Except ε β} {xs : List α} {e : ε} :
    xs.mapM f = .error e ↔ ∃ before x after, xs = before ++ x :: after ∧
      (∀ y ∈ before, ∃ b, f y = .ok b) ∧ f x = .error e := by
  constructor
  · intro h
    induction xs with
    | nil => cases h
    | cons y ys ih =>
      rw [List.mapM_cons] at h
      cases hy : f y with
      | error e' =>
        rw [hy] at h
        cases h
        exact ⟨[], y, ys, rfl, by simp, hy⟩
      | ok b =>
        -- the first member is converted, so it is one of the others that fails
        have hrest : ys.mapM f = .error e := by
          rw [hy] at h
          cases hys : ys.mapM f with
          | error e' => rw [hys] at h; cases h; rfl
          | ok bs => rw [hys] at h; cases h
        obtain ⟨before, x, after, rfl, hbefore, hx⟩ := ih hrest
        exact ⟨y :: before, x, after, rfl, List.forall_mem_cons.2 ⟨⟨b, hy⟩, hbefore⟩, hx⟩
  · rintro ⟨before, x, after, rfl, hbefore, hx⟩
    induction before with
    | nil =>
      rw [List.nil_append, List.mapM_cons, hx]
      rfl
    | cons y before ih =>
      obtain ⟨⟨b, hy⟩, hbefore⟩ := List.forall_mem_cons.1 hbefore
      rw [List.cons_append, List.mapM_cons, hy, ih hbefore]
      rfl

theorem ConversionError.kind_eq_overflow_iff {cause : ConversionError} :
    cause.kind = .overflow ↔ cause = .infinity := by
  cases cause <;> simp [kind]

namespace Value

/-- Is the value an infinity? -/
def Infinite (v : Value) : Prop := ∃ negative, v = .scalar (.float (.infinity negative))

/-- An infinity is all that has no whole part for its size. -/
theorem toInt_eq_infinity_iff {v : Value} : v.toInt = .error .infinity ↔ v.Infinite := by
  constructor
  · intro h
    cases v with
    | list items => cases h
    | table entries => cases h
    | scalar s =>
      simp only [toInt] at h
      cases s with
      | float x =>
        cases x with
        | infinity negative => exact ⟨negative, rfl⟩
        | nan => simp [Scalar.toInt, Binary64.truncate?] at h
        | finite negative mantissa exponent => simp [Scalar.toInt, Binary64.truncate?] at h
      | text s =>
        simp only [Scalar.toInt] at h
        cases hread : Numeral.read s <;> rw [hread] at h <;> cases h
      | ragged s =>
        simp only [Scalar.toInt] at h
        cases hread : Numeral.readGlyphs s <;> rw [hread] at h <;> cases h
      | _ => cases h
  · rintro ⟨negative, rfl⟩
    rfl

/-- Several are expected, and the first that is no whole number is an infinity. -/
theorem toInts_eq_infinity_iff {v : Value} :
    v.toInts = .error .infinity ↔ ∃ before x after, v.members = .ok (before ++ x :: after) ∧
      (∀ y ∈ before, ∃ i, y.toInt = .ok i) ∧ x.Infinite := by
  unfold toInts
  cases hmembers : v.members with
  | error cause =>
    -- what has no members is of the wrong kind
    have hkind : cause ≠ .infinity := by
      rintro rfl
      unfold members at hmembers
      split at hmembers <;> cases hmembers
    simp [bind, Except.bind, hkind]
  | ok items =>
    show items.mapM toInt = .error .infinity ↔ _
    rw [mapM_eq_error_iff]
    simp only [toInt_eq_infinity_iff, Except.ok.injEq]

end Value

namespace Config

variable {d : Table} {c : Config}

/-- An infinity is met before anything else that cannot be converted: it is the limit, or the first of
the phases that is no whole number. -/
def Overflows (d : Table) : Prop :=
  (∃ path, toPath (d.get? (.text "program_path")) = .ok path) ∧
    ((∃ v, d.get? (.text "tick_limit") = some v ∧ v.Infinite) ∨
      (∃ limit, toLimit (d.get? (.text "tick_limit")) = .ok limit) ∧
      ∃ v before x after, d.get? (.text "phase_settings") = some v ∧
        v.members = .ok (before ++ x :: after) ∧ (∀ y ∈ before, ∃ i, y.toInt = .ok i) ∧ x.Infinite)

/-- Phases that collide are all that is wrong, and one of them is too long to be written. -/
structure Collides (c : Config) : Prop where
  path : c.programPath ≠ ""
  limit : 1 ≤ c.tickLimit
  phases : 2 ≤ c.phases.length
  collision : ¬ c.phases.Nodup
  unwritten : ∃ phase ∈ c.phases, Numeral.writable phase = false

theorem toPath_ne_infinity (setting : Option Value) : toPath setting ≠ .error .infinity := by
  intro h
  cases setting with
  | none => cases h
  | some v =>
    simp only [toPath, Value.toText] at h
    split at h <;> cases h

theorem toLimit_eq_infinity_iff {setting : Option Value} :
    toLimit setting = .error .infinity ↔ ∃ v, setting = some v ∧ v.Infinite := by
  cases setting with
  | none => simp [toLimit]
  | some v => simp [toLimit, Value.toInt_eq_infinity_iff]

theorem toPhases_eq_infinity_iff {setting : Option Value} :
    toPhases setting = .error .infinity ↔ ∃ v before x after, setting = some v ∧
      v.members = .ok (before ++ x :: after) ∧ (∀ y ∈ before, ∃ i, y.toInt = .ok i) ∧ x.Infinite := by
  have hsome : ∀ v : Value, toPhases (some v) = .error .infinity ↔ v.toInts = .error .infinity := by
    intro v
    unfold toPhases
    split
    · next h => cases h
    · next h => cases h; simp [Value.toInts, Value.members, bind, Except.bind]
    · next h => cases h; exact Iff.rfl
  cases setting with
  | none => simp [toPhases]
  | some v =>
    rw [hsome, Value.toInts_eq_infinity_iff]
    simp

/-- A conversion that fails is a refusal, unless an infinity was met. -/
theorem convert_refused {α : Type} {cause : ConversionError} (h : cause ≠ .infinity) :
    convert (.error cause : Except ConversionError α) = .error (.refused (.badTypes cause)) := by
  have hkind : cause.kind ≠ .overflow := fun hk => h (ConversionError.kind_eq_overflow_iff.1 hk)
  rw [convert, if_neg hkind]

/-- An infinity that is met is passed on. -/
theorem ofEntries_of_overflows (h : Overflows d) : ofEntries d = .error (.conversion .infinity) := by
  obtain ⟨⟨path, hpath⟩, hlimit | ⟨⟨limit, hlimit⟩, hphases⟩⟩ := h
  · rw [ofEntries, hpath, toLimit_eq_infinity_iff.2 hlimit]
    rfl
  · rw [ofEntries, hpath, hlimit, toPhases_eq_infinity_iff.2 hphases]
    rfl

/-- **How the conversions end**: all succeed, or the first that does not refuses the table, or an
infinity is met. -/
theorem ofEntries_cases (d : Table) :
    (∃ c, ofEntries d = .ok c) ∨ (∃ e, ofEntries d = .error (.refused e)) ∨ Overflows d := by
  unfold ofEntries Overflows
  rw [← toLimit_eq_infinity_iff, ← toPhases_eq_infinity_iff]
  cases hpath : toPath (d.get? (.text "program_path")) with
  | error cause =>
    have hcause : cause ≠ .infinity := by
      rintro rfl
      exact toPath_ne_infinity _ hpath
    rw [convert_refused hcause]
    exact .inr (.inl ⟨_, rfl⟩)
  | ok path =>
    cases hlimit : toLimit (d.get? (.text "tick_limit")) with
    | error cause =>
      by_cases hcause : cause = .infinity
      · exact .inr (.inr ⟨⟨path, rfl⟩, .inl (by rw [hcause])⟩)
      · rw [convert_refused hcause]
        exact .inr (.inl ⟨_, rfl⟩)
    | ok limit =>
      cases hphases : toPhases (d.get? (.text "phase_settings")) with
      | error cause =>
        by_cases hcause : cause = .infinity
        · exact .inr (.inr ⟨⟨path, rfl⟩, .inr ⟨⟨limit, rfl⟩, by rw [hcause]⟩⟩)
        · rw [convert_refused hcause]
          exact .inr (.inl ⟨_, rfl⟩)
      | ok phases => exact .inl ⟨_, rfl⟩

theorem check_of_collides (h : c.Collides) :
    c.check.mapError refusal = .error (.conversion .notWritable) := by
  obtain ⟨hpath, hlimit, hphases, hcollision, phase, hmem, hlong⟩ := h
  have hall : ¬ Numeral.allWritable c.phases = true := by
    rw [Numeral.allWritable, List.all_eq_true]
    intro hall
    rw [hall phase hmem] at hlong
    cases hlong
  rw [check, if_neg hpath, if_neg (by omega), if_neg (by omega), if_pos hcollision]
  have hrefusal : refusal (.phasesNotDistinct c.phases) = .conversion .notWritable := if_neg hall
  exact congrArg Except.error hrefusal

/-- **How the checks end**: all are passed, or the first that is not refuses the configuration, or
phases that collide cannot be written. -/
theorem check_cases (c : Config) :
    (c.check.mapError refusal = .ok c ∧ c.Valid) ∨
      (∃ e, c.check.mapError refusal = .error (.refused e)) ∨ c.Collides := by
  unfold check
  split
  · exact .inr (.inl ⟨_, rfl⟩)
  next hpath =>
  split
  · exact .inr (.inl ⟨_, rfl⟩)
  next hlimit =>
  split
  · exact .inr (.inl ⟨_, rfl⟩)
  next hphases =>
  split
  next hcollision =>
    by_cases hall : Numeral.allWritable c.phases = true
    · have hrefused : refusal (.phasesNotDistinct c.phases) =
          .refused (.phasesNotDistinct c.phases) := if_pos hall
      exact .inr (.inl ⟨_, congrArg Except.error hrefused⟩)
    · have hlong : ∃ phase ∈ c.phases, Numeral.writable phase = false := by
        simpa [Numeral.allWritable] using hall
      exact .inr (.inr ⟨hpath, by omega, by omega, hcollision, hlong⟩)
  next hdistinct =>
    exact .inl ⟨rfl, hpath, by omega, by omega, Decidable.not_not.1 hdistinct⟩

/-- **How the reading of a table ends**, whatever values it holds: with a configuration that passes all
checks, or with a refusal, with two exceptions. If an infinity is met before anything else that cannot
be converted, then that failure is passed on as it is; and if phases that collide are all that is
wrong, and one of them is too long to be written, then this is what the failure says.

A value is a finite tree here, and may be nested to any depth: how deep a nesting the host can show in
a message is left out. -/
theorem load_outcomes (reader : Reader) (fs : Files) (d : Table) :
    ((∃ c, load reader fs (.table d) = .ok c ∧ c.Valid) ∨
      (∃ e, load reader fs (.table d) = .error (.refused e)) ∨ Overflows d ∨ ∃ c, ofEntries d = .ok c ∧ c.Collides) ∧
    (load reader fs (.table d) = .error (.conversion .infinity) ↔ Overflows d) ∧
    (load reader fs (.table d) = .error (.conversion .notWritable) ↔
      ∃ c, ofEntries d = .ok c ∧ c.Collides) := by
  have hinfinite : Overflows d → load reader fs (.table d) = .error (.conversion .infinity) := by
    intro h
    rw [load, ofTable, ofEntries_of_overflows h]
    rfl
  have hcollides : (∃ c, ofEntries d = .ok c ∧ c.Collides) →
      load reader fs (.table d) = .error (.conversion .notWritable) := by
    rintro ⟨c, hc, h⟩
    rw [load, ofTable, hc]
    exact check_of_collides h
  have hends : (∃ c, load reader fs (.table d) = .ok c ∧ c.Valid) ∨
      (∃ e, load reader fs (.table d) = .error (.refused e)) ∨
      Overflows d ∨ ∃ c, ofEntries d = .ok c ∧ c.Collides := by
    rw [load, ofTable]
    rcases ofEntries_cases d with ⟨c, hc⟩ | ⟨e, he⟩ | h
    · rw [hc]
      rcases check_cases c with ⟨hok, hvalid⟩ | ⟨e, he⟩ | h
      · exact .inl ⟨c, hok, hvalid⟩
      · exact .inr (.inl ⟨e, he⟩)
      · exact .inr (.inr (.inr ⟨c, rfl, h⟩))
    · rw [he]
      exact .inr (.inl ⟨e, rfl⟩)
    · exact .inr (.inr (.inl h))
  refine ⟨hends, ⟨?_, hinfinite⟩, ⟨?_, hcollides⟩⟩
  · intro h
    rcases hends with ⟨c, hok, -⟩ | ⟨e, he⟩ | ho | hc
    · rw [h] at hok; cases hok
    · rw [h] at he; cases he
    · exact ho
    · rw [hcollides hc] at h; cases h
  · intro h
    rcases hends with ⟨c, hok, -⟩ | ⟨e, he⟩ | ho | hc
    · rw [h] at hok; cases hok
    · rw [h] at he; cases he
    · rw [hinfinite ho] at h; cases h
    · exact hc

/-- **Tables that are neither read nor refused**: an infinite limit, and a phase of one digit more than
is written that is given twice. -/
theorem load_unrefused :
    let reader : Reader := fun _ => .error .notUtf8
    let infinite : Table := [(.text "tick_limit", .scalar (.float (.infinity false)))]
    let phase : Int := Nat.pow 10 Numeral.maxDigits
    let twice : Table := [(.text "phase_settings", .list [.int phase, .int phase])]
    (¬ (∃ c, load reader ⟨[]⟩ (.table infinite) = .ok c) ∧
        ¬ ∃ e, load reader ⟨[]⟩ (.table infinite) = .error (.refused e)) ∧
      (¬ (∃ c, load reader ⟨[]⟩ (.table twice) = .ok c) ∧
        ¬ ∃ e, load reader ⟨[]⟩ (.table twice) = .error (.refused e)) := by
  intro reader infinite phase
  have hlong : Numeral.writable phase = false := Numeral.writable_pow
  clear_value phase
  intro twice
  have hinfinite : load reader ⟨[]⟩ (.table infinite) = .error (.conversion .infinity) := by rfl
  have htwice : load reader ⟨[]⟩ (.table twice) = .error (.conversion .notWritable) := by
    have hphases : toPhases (twice.get? (.text "phase_settings")) = .ok [phase, phase] :=
      toInts_list [phase, phase]
    have hcollides : Collides { default with phases := [phase, phase] } :=
      ⟨show "input.txt" ≠ "" by decide, show 1 ≤ Machine.defaultTickLimit by decide,
        Nat.le_refl 2, by simp, phase, by simp, hlong⟩
    rw [load, ofTable, ofEntries, hphases]
    exact check_of_collides hcollides
  rw [hinfinite, htwice]
  simp

end Config

end Intcode
