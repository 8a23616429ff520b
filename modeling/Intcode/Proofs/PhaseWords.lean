import Mathlib.Data.List.Nodup
import Intcode.Proofs.LastWriter
import Intcode.Proofs.LayeredConfig
import Intcode.Proofs.Residue
import Intcode.Proofs.Stages

/-!
# Phases as words

Until a stage reads something, it does what all stages do: its phase and its signal wait
on the queue and nobody has looked at them. So all stages come to their first input
instruction after the same number of steps, and it stores the word of the phase in the
same cell. The phases of a configuration are distinct as numbers; as words they are
distinct if no two of them are congruent modulo 2³².

* `Machine.after_followed`: a machine before it comes to an input instruction.
* `Machine.FirstInput`: the first input instruction that a machine executes.
* `Chain.stores_phase`: what the first input instruction of a stage stores.
* `Config.nodup_wrap_iff`: which phases are distinct as words.
* `Config.ofTable_phaseWords`: all of it, for a configuration that has been read.
-/

namespace Intcode

namespace Machine

variable {m : Machine}

/-- A machine that is left waiting is at an input instruction. -/
theorem AtInput.of_starves (h : m.Starves) : m.AtInput := by
  obtain ⟨e, he⟩ := h
  obtain ⟨hs, -, target, next, hnext⟩ := next_of_read he
  obtain ⟨i, hfetch, hi⟩ := fetch_of_next (m := m) (by simp [hnext])
  rw [hnext] at hi
  obtain ⟨dest, rfl, -⟩ := hi
  refine ⟨hs, dest, ?_⟩
  unfold fetch at hfetch
  split at hfetch
  · cases hfetch
  · exact hfetch

/-- A machine that comes to no input instruction does not see what is on its queue. -/
theorem after_followed {n : Nat} (h : ∀ k < n, ¬ (m.after k).AtInput) (behind : List Int) :
    (m.followed behind).after n = (m.after n).followed behind :=
  after_commutes_of fun k hk => step_followed (fun hstarves => h k hk (.of_starves hstarves)) behind

/-- Neither does it see how far it is from one. -/
theorem not_atInput_of_followed {behind : List Int} {n : Nat}
    (h : ∀ k < n, ¬ ((m.followed behind).after k).AtInput) : ∀ k < n, ¬ (m.after k).AtInput := by
  intro k
  induction k using Nat.strong_induction_on with
  | _ k ih =>
    intro hk hat
    have hsame := after_followed (fun j hj => ih j hj (by omega)) behind
    refine h k hk ?_
    rw [hsame]
    exact hat

/-- An input instruction succeeds if there is a value to read and its destination is a cell. -/
theorem step_fst_of_input {dest : Operand} {v : Int} (hs : m.status = .running)
    (hfetch : m.fetch = .ok (.input dest)) (hread : m.channel.read.1 = .ok v) :
    m.step.1 = (dest.target m.memory).map fun _ => .running := by
  have hboth : m.channel.read = (.ok v, m.channel.read.2) := by rw [← hread]
  simp only [step, hs, cycle, hfetch, exec, storeThen]
  rw [hboth]
  cases dest.target m.memory <;> rfl

/-- The first input instruction that a machine executes is that of step `n`, and it stores its value in
the cell at `a`. -/
structure FirstInput (m : Machine) (n : Nat) (a : Int) : Prop where
  before : ∀ k < n, ¬ (m.after k).AtInput
  executed : ∃ value?, (m.after n).execution? = some ⟨.input (.address a), value?⟩

/-- What it takes to execute an input instruction. -/
theorem execution?_eq_input_iff {a : Int} {value? : Option Int} :
    m.execution? = some ⟨.input (.address a), value?⟩ ↔
      m.status = .running ∧ m.fetch = .ok (.input (.address a)) ∧ m.memory.Inside a ∧
        ∃ v, m.channel.read.1 = .ok v ∧ value? = some v := by
  constructor
  · intro h
    unfold execution? at h
    split at h
    · next i s hs hfetch hstep =>
      cases h
      cases hread : m.channel.read.1 with
      | error e =>
        -- a read in vain would have made the step fail
        have hx : m.exchange? = some (.read (.error e)) := by
          simp only [exchange?, hs, hfetch, hread]
        rw [step_of_refused hx rfl] at hstep
        cases hstep
      | ok v =>
        rw [step_fst_of_input hs hfetch hread] at hstep
        cases htarget : (Operand.address a).target m.memory with
        | error e =>
          rw [htarget] at hstep
          cases hstep
        | ok b =>
          obtain ⟨heq, hin⟩ := Operand.inside_of_target htarget
          cases heq
          exact ⟨hs, hfetch, hin, v, rfl, by rw [computed?, hread]; rfl⟩
    · cases h
  · rintro ⟨hs, hfetch, hin, v, hread, rfl⟩
    have htarget : (Operand.address a).target m.memory = .ok a := if_pos hin
    have hstep := step_fst_of_input hs hfetch hread
    rw [htarget] at hstep
    simp only [execution?, hs, hfetch, hstep, computed?, hread]
    rfl

end Machine

namespace Chain

variable {c : Chain}

/-- The machine of a stage that is given nothing. -/
def unfed (c : Chain) : Machine := .boot c.program (.queue (.ofInputs [])) c.tickLimit true

theorem stageMachine_eq_followed (c : Chain) (phase signal : Int) :
    c.stageMachine phase signal = c.unfed.followed [phase, signal] := rfl

/-- **All stages come to their first input instruction alike**, and it stores the word of the phase. -/
theorem stores_phase {phase₀ signal₀ : Int} {n : Nat} {a : Int}
    (h : (c.stageMachine phase₀ signal₀).FirstInput n a) (phase signal : Int) :
    (c.stageMachine phase signal).FirstInput n a ∧
      ((c.stageMachine phase signal).after (n + 1)).memory.get? a = some (Word.wrap phase) := by
  obtain ⟨hbefore, value?, hexec⟩ := h
  rw [stageMachine_eq_followed] at hbefore hexec
  have hunfed := Machine.not_atInput_of_followed hbefore
  have hstage := fun behind => Machine.after_followed hunfed behind
  rw [hstage, Machine.execution?_eq_input_iff] at hexec
  obtain ⟨hs, hfetch, hin, -⟩ := hexec
  -- nothing was there to be read so far
  obtain ⟨q, hq, hsuffix⟩ := Machine.after_suffix (m := c.unfed) (q := .ofInputs []) rfl n
  have hpending : q.pending = [] := List.suffix_nil.1 hsuffix
  have hread : ((c.unfed.after n).followed [phase, signal]).channel.read.1 = .ok phase := by
    simp only [Machine.followed, hq, Channel.followed, hpending]
    rfl
  have hexecuted : ((c.unfed.after n).followed [phase, signal]).execution? =
      some ⟨.input (.address a), some phase⟩ :=
    Machine.execution?_eq_input_iff.2 ⟨hs, hfetch, hin, phase, hread, rfl⟩
  rw [stageMachine_eq_followed]
  refine ⟨⟨?_, some phase, by rw [hstage]; exact hexecuted⟩, ?_⟩
  · intro k hk
    rw [Machine.after_followed fun j hj => hunfed j (by omega)]
    exact hunfed k hk
  · rw [Machine.after_succ, hstage, Machine.get?_step, hexecuted]
    have hwrites : Execution.Writes ⟨.input (.address a), some phase⟩ a := rfl
    rw [Option.filter_some, if_pos (decide_eq_true hwrites)]
    rfl

end Chain

namespace Config

/-- **Distinct phases are distinct as words** if no two of them are congruent. -/
theorem nodup_wrap_iff {phases : List Int} (h : phases.Nodup) :
    (phases.map Word.wrap).Nodup ↔ ∀ p ∈ phases, ∀ q ∈ phases, p ≡ q [ZMOD 2 ^ 32] → p = q := by
  rw [List.nodup_map_iff_inj_on h]
  simp only [Word.wrap_eq_wrap_iff]

/-- **Phases as words.** The phases of a configuration that has been read are distinct as words exactly
if no two of them are congruent modulo 2³², and so they are if all of them are words. And if one stage
of a chain executes an input instruction, then all stages do, whatever their phases and signals are: the
first one is that of the same step, and stores the word of the phase in the same cell. So what the stages
of the phases have there is distinct exactly if no two of the phases are congruent. -/
theorem ofTable_phaseWords {d : Table} {c : Config} (h : ofTable d = .ok c) :
    ((c.phases.map Word.wrap).Nodup ↔
      ∀ p ∈ c.phases, ∀ q ∈ c.phases, p ≡ q [ZMOD 2 ^ 32] → p = q) ∧
    ((∀ p ∈ c.phases, Word.InRange p) → (c.phases.map Word.wrap).Nodup) ∧
    ∀ (chain : Chain) (phase signal : Int) (n : Nat) (a : Int),
      (chain.stageMachine phase signal).FirstInput n a → ∀ signals : Int → Int,
        let stored : List (Option Int) := c.phases.map fun p =>
          ((chain.stageMachine p (signals p)).after (n + 1)).memory.get? a
        (∀ p ∈ c.phases, (chain.stageMachine p (signals p)).FirstInput n a) ∧
        stored = (c.phases.map Word.wrap).map some ∧
        (stored.Nodup ↔ ∀ p ∈ c.phases, ∀ q ∈ c.phases, p ≡ q [ZMOD 2 ^ 32] → p = q) := by
  obtain ⟨-, -, -, -, -, hvalid⟩ := ofTable_eq_ok h
  have hwords := nodup_wrap_iff hvalid.distinct
  refine ⟨hwords, ?_, ?_⟩
  · intro hrange
    rw [List.map_congr_left fun p hp => Word.wrap_eq_self (hrange p hp), List.map_id']
    exact hvalid.distinct
  · intro chain phase signal n a hfirst signals stored
    have hstage := fun p => Chain.stores_phase hfirst p (signals p)
    have hstored : stored = (c.phases.map Word.wrap).map some := by
      rw [List.map_map]
      exact List.map_congr_left fun p _ => (hstage p).2
    refine ⟨fun p _ => (hstage p).1, hstored, ?_⟩
    rw [hstored, List.nodup_map_iff (Option.some_injective _), hwords]

/-- Stages that compute something before they read their phases. -/
theorem ofTable_phaseWords_later :
    let d : Table := [(.text "phase_settings", .text "5,-3")]
    let c : Config := { default with phases := [5, -3] }
    let chain : Chain := ⟨[1101, 2, 3, 8, 3, 7, 99, 0, 0], 9⟩
    ofTable d = .ok c ∧ (c.phases.map Word.wrap).Nodup ∧
      (chain.stageMachine 1 0).FirstInput 1 7 ∧
      (c.phases.map fun p => ((chain.stageMachine p 0).after 2).memory.get? 7) =
        [some 5, some (-3)] := by
  intro d c chain
  have h : ofTable d = .ok c := by rfl
  have hfirst : (chain.stageMachine 1 0).FirstInput 1 7 := by
    refine ⟨?_, some 1, by decide +kernel⟩
    intro k hk hat
    obtain rfl : k = 0 := by omega
    obtain ⟨-, dest, hdecode⟩ := hat
    cases hdecode
  obtain ⟨-, hwords, hstages⟩ := ofTable_phaseWords h
  obtain ⟨-, hstored, -⟩ := hstages chain 1 0 1 7 hfirst fun _ => 0
  exact ⟨h, hwords (by decide), hfirst, hstored⟩

/-- **Phases that are distinct need not be so as words**: a configuration with two phases that differ by
2³² is read, and their stages store the same word. -/
theorem ofTable_phaseWords_collide :
    let d : Table := [(.text "phase_settings", .list [.int 0, .int 4294967296])]
    let c : Config := { default with phases := [0, 4294967296] }
    let chain : Chain := ⟨[3, 3, 99, 7], 9⟩
    ofTable d = .ok c ∧ ¬ (c.phases.map Word.wrap).Nodup ∧
      (∀ p ∈ c.phases, (chain.stageMachine p 0).FirstInput 0 3) ∧
      (c.phases.map fun p => ((chain.stageMachine p 0).after 1).memory.get? 3) = [some 0, some 0] := by
  intro d c chain
  have hfirst : ∀ p, (chain.stageMachine p 0).FirstInput 0 3 := by
    intro p
    exact ⟨by intro k hk; omega, some p, rfl⟩
  exact ⟨rfl, by decide, fun p _ => hfirst p, by rfl⟩

end Config

end Intcode
