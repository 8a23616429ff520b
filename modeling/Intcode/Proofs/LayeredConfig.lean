import Intcode.CommandLine.Run

/-!
# Configurations in layers

A configuration can be read from a table at once, or in layers: read from one table,
written to a table again, and read from there with more entries on top. The outcome is
the same, for a configuration that has been read stands for the same settings as the
table that it was read from, whatever is entered into both.

* `Table.filter_insert`: what an entry does to those with certain keys.
* `Alike`: tables that stand for the same settings.
* `Alike.update`: they do so under any entries on top.
* `ofTable_insert_phases`: other phases that pass the checks.
* `alike_toTable`: a configuration and the table it was read from are alike.
* `ofTable_layered`: reading in layers is reading at once.
-/

namespace Intcode

namespace Table

/-- **What an entry does to those with certain keys**: it is entered among them, or does nothing to
them if its key is none of these. -/
theorem filter_insert {p : Scalar → Bool} (hp : ∀ a b : Scalar, a.sameKey b = true → p a = p b)
    (t : Table) (key : Scalar) (v : Value) :
    List.filter (fun e => p e.1) (t.insert key v) =
      if p key then insert (t.filter fun e => p e.1) key v else t.filter fun e => p e.1 := by
  induction t with
  | nil => cases h : p key <;> simp [insert, h]
  | cons e t ih =>
    obtain ⟨k, w⟩ := e
    by_cases hsame : k.sameKey key = true
    · -- the entry takes the place of this one
      have hk := hp k key hsame
      cases h : p key <;> simp [insert, hsame, hk, h]
    · cases hk : p k with
      | false => simp [insert, hsame, hk, ih]
      | true =>
        cases h : p key <;> simp [insert, hsame, hk, ih, h]

theorem without_insert (t : Table) (key : Scalar) (v : Value) (names : List String) :
    (t.insert key v).without names =
      if names.any fun k => key.sameKey (.text k) then t.without names
      else (t.without names).insert key v := by
  have hp : ∀ a b : Scalar, a.sameKey b = true →
      (!names.any fun k => a.sameKey (.text k)) = !names.any fun k => b.sameKey (.text k) := by
    intro a b hab
    have htext : ∀ s, a = .text s ↔ b = .text s := by
      intro s
      constructor <;> rintro rfl <;> simpa using hab
    simp only [Scalar.sameKey_text, htext]
  unfold without
  rw [filter_insert (p := fun a => !names.any fun k => a.sameKey (.text k)) hp]
  cases names.any fun k => key.sameKey (.text k) <;> rfl

end Table

namespace Config

/-- Tables that stand for the same settings, and have the same entries that are none. -/
structure Alike (t t' : Table) : Prop where
  path : toPath (t.get? (.text "program_path")) = toPath (t'.get? (.text "program_path"))
  limit : toLimit (t.get? (.text "tick_limit")) = toLimit (t'.get? (.text "tick_limit"))
  phases : toPhases (t.get? (.text "phase_settings")) = toPhases (t'.get? (.text "phase_settings"))
  lenient : toLenient (t.get? (.text "lenient_log")) = toLenient (t'.get? (.text "lenient_log"))
  extra : t.without settingNames = t'.without settingNames

variable {t t' : Table}

/-- Tables that are alike give the same configuration, or are refused for the same reason. -/
theorem Alike.ofTable_eq (h : Alike t t') : ofTable t = ofTable t' := by
  rw [ofTable, ofTable, ofEntries, ofEntries, h.path, h.limit, h.phases, h.lenient, h.extra]

/-- What is read of a setting stays alike when an entry is added: it is that of the entry, or as
before. -/
theorem read_insert {α : Type} (read : Option Value → α) {name : String}
    (h : read (t.get? (.text name)) = read (t'.get? (.text name))) (key : Scalar) (v : Value) :
    read ((t.insert key v).get? (.text name)) = read ((t'.insert key v).get? (.text name)) := by
  rw [Table.get?_insert, Table.get?_insert]
  by_cases hkey : key = .text name
  · rw [if_pos hkey, if_pos hkey]
  · rw [if_neg hkey, if_neg hkey]
    exact h

theorem Alike.insert (h : Alike t t') (key : Scalar) (v : Value) :
    Alike (t.insert key v) (t'.insert key v) where
  path := read_insert toPath h.path key v
  limit := read_insert toLimit h.limit key v
  phases := read_insert toPhases h.phases key v
  lenient := read_insert toLenient h.lenient key v
  extra := by rw [Table.without_insert, Table.without_insert, h.extra]

/-- **Tables stay alike under any entries on top.** -/
theorem Alike.update (h : Alike t t') (o : Table) : Alike (t.update o) (t'.update o) := by
  induction o generalizing t t' with
  | nil => exact h
  | cons e o ih => exact ih (h.insert e.1 e.2)

/-- The settings pass all checks. -/
structure Valid (c : Config) : Prop where
  path : c.programPath ≠ ""
  limit : 1 ≤ c.tickLimit
  phases : 2 ≤ c.phases.length
  distinct : c.phases.Nodup

/-- The check changes nothing. -/
theorem check_eq_ok_iff {c c' : Config} :
    c.check.mapError refusal = .ok c' ↔ c = c' ∧ c.Valid := by
  unfold check
  constructor
  · intro h
    split at h
    · cases h
    next hpath =>
    split at h
    · cases h
    next hlimit =>
    split at h
    · cases h
    next hphases =>
    split at h
    · cases h
    next hdistinct =>
    cases h
    exact ⟨rfl, hpath, by omega, by omega, Decidable.not_not.1 hdistinct⟩
  · rintro ⟨rfl, hpath, hlimit, hphases, hdistinct⟩
    rw [if_neg hpath, if_neg (by omega), if_neg (by omega), if_neg (not_not_intro hdistinct)]
    rfl

/-- **What a configuration has been read from**: its settings are what those of the table stand for and
pass all checks, and all else is kept. -/
theorem ofTable_eq_ok {d : Table} {c : Config} (h : ofTable d = .ok c) :
    toPath (d.get? (.text "program_path")) = .ok c.programPath ∧
      toLimit (d.get? (.text "tick_limit")) = .ok c.tickLimit ∧
      toPhases (d.get? (.text "phase_settings")) = .ok c.phases ∧
      toLenient (d.get? (.text "lenient_log")) = c.lenient ∧ d.without settingNames = c.extra ∧
      c.Valid := by
  rw [ofTable, ofEntries] at h
  cases hpath : toPath (d.get? (.text "program_path")) with
  | error e => rw [hpath] at h; cases h
  | ok path =>
    cases hlimit : toLimit (d.get? (.text "tick_limit")) with
    | error e => rw [hpath, hlimit] at h; cases h
    | ok limit =>
      cases hphases : toPhases (d.get? (.text "phase_settings")) with
      | error e => rw [hpath, hlimit, hphases] at h; cases h
      | ok phases =>
        rw [hpath, hlimit, hphases] at h
        obtain ⟨rfl, hvalid⟩ := check_eq_ok_iff.1 h
        exact ⟨rfl, rfl, rfl, rfl, rfl, hvalid⟩

/-- Phases that pass the checks replace those of a configuration, and nothing else changes. -/
theorem ofTable_insert_phases {t : Table} {c : Config} (h : ofTable t = .ok c) {v : Value}
    {phases : List Int} (hphases : toPhases (some v) = .ok phases) (hlen : 2 ≤ phases.length)
    (hdistinct : phases.Nodup) :
    ofTable (t.insert (.text "phase_settings") v) = .ok { c with phases := phases } := by
  obtain ⟨hpath, hlimit, -, hlenient, hextra, hvalid⟩ := ofTable_eq_ok h
  have hother : ∀ name, name ≠ "phase_settings" →
      (t.insert (.text "phase_settings") v).get? (.text name) = t.get? (.text name) := by
    intro name hname
    rw [Table.get?_insert, if_neg]
    simpa using hname.symm
  have hgiven : (t.insert (.text "phase_settings") v).get? (.text "phase_settings") = some v := by
    rw [Table.get?_insert, if_pos rfl]
  have hkept : (t.insert (.text "phase_settings") v).without settingNames = c.extra := by
    rw [Table.without_insert, if_pos (by decide), hextra]
  rw [ofTable, ofEntries, hother _ (by decide), hpath, hother _ (by decide), hlimit, hgiven, hphases,
    hother _ (by decide), hlenient, hkept]
  exact check_eq_ok_iff.2 ⟨rfl, hvalid.path, hvalid.limit, hlen, hdistinct⟩

/-- Whole numbers in a list stand for themselves. -/
theorem toInts_list (xs : List Int) : Value.toInts (.list (xs.map .int)) = .ok xs := by
  show (xs.map Value.int).mapM Value.toInt = .ok xs
  induction xs with
  | nil => rfl
  | cons x xs ih =>
    rw [List.map_cons, List.mapM_cons, ih]
    rfl

/-- **A configuration and the table that it was read from are alike.** -/
theorem alike_toTable {d : Table} {c : Config} (h : ofTable d = .ok c) : Alike c.toTable d := by
  obtain ⟨hpath, hlimit, hphases, hlenient, hextra, -⟩ := ofTable_eq_ok h
  refine ⟨?_, ?_, ?_, ?_, ?_⟩
  · rw [hpath]
    rfl
  · rw [hlimit]
    rfl
  · rw [hphases]
    exact toInts_list c.phases
  · rw [hlenient]
    rfl
  · -- none of the other entries is a setting, for none was when they were kept
    have hkept : c.extra.without settingNames = c.extra := by
      rw [← hextra, Table.without, Table.without, List.filter_filter]
      simp
    rw [hextra, ← hkept]
    simp [toTable, Table.without, settingNames]

end Config

/-- The command reads its configuration a second time if there are phases among its options. -/
theorem CommandLine.loadConfig_phases {reader : Config.Reader} {options : Options} {fs : Files}
    {c : Config} (h : loadConfig reader { options with phases := .absent } fs = .ok c)
    (phases : String) :
    loadConfig reader { options with phases := .value phases } fs =
      Config.ofTable (c.toTable.insert (.text "phase_settings") (.text phases)) := by
  unfold loadConfig at h ⊢
  simp only at h ⊢
  generalize Config.load reader fs _ = loaded at h ⊢
  cases loaded with
  | error e => cases h
  | ok c' =>
    cases h
    rfl

namespace Config

/-- **Reading in layers is reading at once.** Take a table from which a configuration is read. Further
entries on top of that configuration give the same outcome as on top of the table: the same
configuration, or the same failure. So a configuration is read again from its own table; and the
command, which reads its configuration a second time if there are phases among its options, gives what
one reading of the table with these phases would. -/
theorem ofTable_layered {d : Table} {c : Config} (h : ofTable d = .ok c) :
    (∀ o : Table, ofTable (c.toTable.update o) = ofTable (d.update o)) ∧
    ofTable c.toTable = .ok c ∧
    ∀ (reader : Reader) (options : CommandLine.Options) (fs : Files) (phases : String),
      CommandLine.loadConfig reader { options with phases := .absent } fs = .ok c →
      CommandLine.loadConfig reader { options with phases := .value phases } fs =
        ofTable (d.insert (.text "phase_settings") (.text phases)) := by
  have halike := alike_toTable h
  refine ⟨fun o => (halike.update o).ofTable_eq, halike.ofTable_eq.trans h, ?_⟩
  intro reader options fs phases hload
  rw [CommandLine.loadConfig_phases hload, (halike.insert _ _).ofTable_eq]

/-- A table of loose values, with an entry that is no setting, and entries on top of it that collide
once they are whole numbers. -/
theorem ofTable_layered_loose :
    let d : Table := [(.text "tick_limit", .text " 7 "), (.text "x", .null),
      (.text "phase_settings", .text "3,,1"), (.text "lenient_log", .int 2)]
    let o : Table := [(.text "x", .int 5), (.text "phase_settings", .list [.int 1, .bool true])]
    let c : Config := ⟨"input.txt", 7, [3, 1], true, [(.text "x", .null)]⟩
    ofTable d = .ok c ∧ ofTable c.toTable = .ok c ∧
      ofTable (c.toTable.update o) = .error (.refused (.phasesNotDistinct [1, 1])) := by
  intro d o c
  have h : ofTable d = .ok c := by rfl
  have hd : ofTable (d.update o) = .error (.refused (.phasesNotDistinct [1, 1])) := by rfl
  obtain ⟨hlayers, hagain, -⟩ := ofTable_layered h
  exact ⟨h, hagain, (hlayers o).trans hd⟩

end Config

end Intcode
