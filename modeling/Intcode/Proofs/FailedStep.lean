import Intcode.Proofs.Action
import Intcode.Proofs.Decoding

/-!
# Steps that fail

A step that fails has done nothing, with one exception: an input instruction takes
its value before it looks at its destination, so an item of the input may be gone.

* `Channel.read_cases`: what a read consumes, and when.
* `Channel.fault_of_read_error`: a read that fails is a fault of the channel.
* `Channel.write_of_error`: a value that is refused leaves no trace.
* `act_failed`: how an action fails.
* `step_atomic`: what a step that fails leaves behind.
-/

namespace Intcode

namespace Channel

/-- The channel after it was asked for a value: a terminal has shown its prompt. -/
def prompted : Channel → Channel
  | .terminal t => .terminal { t with shown := t.shown ++ t.prompt }
  | c => c

/-- The second channel is the first with one item of its input gone: a value of a queue, a value of a
fixture or a line of a terminal. -/
def Consumes : Channel → Channel → Prop
  | .queue q, d => ∃ v rest, q.pending = v :: rest ∧ d = .queue { q with pending := rest }
  | .fixture f, d =>
    f.readCount < f.inputs.size ∧ d = .fixture { f with readCount := f.readCount + 1 }
  | .terminal t, d =>
    t.unread ≠ [] ∧ d = .terminal { t with unread := Text.dropLine t.unread }

/-- Is there a line to read that is no word? -/
def BadLine (c : Channel) : Prop :=
  ∃ t, c = .terminal t ∧ t.unread ≠ [] ∧
    ∀ v, Word.parse (String.ofList (Text.trim (Text.takeLine t.unread))) ≠ .ok v

theorem Consumes.ne {c d : Channel} (h : Consumes c d) : d ≠ c := by
  rintro rfl
  cases d with
  | queue q =>
    obtain ⟨v, rest, hpending, heq⟩ := h
    have hlen := congrArg List.length hpending
    have hrest : q.pending = rest := congrArg Queue.pending (Channel.queue.inj heq)
    rw [hrest, List.length_cons] at hlen
    omega
  | fixture f =>
    have hcount : f.readCount = f.readCount + 1 :=
      congrArg Fixture.readCount (Channel.fixture.inj h.2)
    omega
  | terminal t =>
    have hunread : t.unread = Text.dropLine t.unread :=
      congrArg Terminal.unread (Channel.terminal.inj h.2)
    have hlen := Text.length_dropLine_lt h.1
    rw [← hunread] at hlen
    omega

/-- **What a read consumes**: the item it delivers, a line that is no word, or nothing. -/
theorem read_cases (c : Channel) :
    ((∃ v, c.read.1 = .ok v) ∨ BadLine c ∧ ∃ e, c.read.1 = .error e) ∧
        Consumes c.prompted c.read.2 ∨
      (∃ e, c.read.1 = .error e) ∧ ¬ BadLine c ∧ c.read.2 = c.prompted := by
  cases c with
  | queue q =>
    cases hp : q.pending with
    | nil =>
      have hread : read (.queue q) = (.error .queueEmpty, .queue q) := by
        simp only [read, Queue.read, hp]
      rw [hread]
      refine .inr ⟨⟨_, rfl⟩, ?_, rfl⟩
      rintro ⟨t, ht, -⟩
      cases ht
    | cons v rest =>
      have hread : read (.queue q) = (.ok v, .queue { q with pending := rest }) := by
        simp only [read, Queue.read, hp]
      rw [hread]
      exact .inl ⟨.inl ⟨v, rfl⟩, v, rest, hp, rfl⟩
  | fixture f =>
    by_cases hlt : f.readCount < f.inputs.size
    · have hread : read (.fixture f) = (.ok f.inputs[f.readCount],
          .fixture { f with readCount := f.readCount + 1 }) := by
        simp only [read, Fixture.read, Array.getElem?_eq_getElem hlt]
      rw [hread]
      exact .inl ⟨.inl ⟨_, rfl⟩, hlt, rfl⟩
    · have hread : read (.fixture f) = (.error (.fixtureDrained f.inputs.size), .fixture f) := by
        simp only [read, Fixture.read, Array.getElem?_eq_none (Nat.le_of_not_lt hlt)]
      rw [hread]
      refine .inr ⟨⟨_, rfl⟩, ?_, rfl⟩
      rintro ⟨t, ht, -⟩
      cases ht
  | terminal t =>
    by_cases hu : t.unread = []
    · have hread : read (.terminal t) = (.error .endOfStream, prompted (.terminal t)) := by
        simp [read, Terminal.read, prompted, hu, Text.dropLine]
      rw [hread]
      refine .inr ⟨⟨_, rfl⟩, ?_, rfl⟩
      rintro ⟨t', ht', hne, -⟩
      cases ht'
      exact hne hu
    · -- the line is gone, whether it is a word or not
      have hread : (read (.terminal t)).1 = Terminal.readLine (Text.takeLine t.unread) := if_neg hu
      refine .inl ⟨?_, hu, rfl⟩
      rw [hread, Terminal.readLine]
      cases hparse : Word.parse (String.ofList (Text.trim (Text.takeLine t.unread))) with
      | ok v => exact .inl ⟨v, rfl⟩
      | error cause =>
        refine .inr ⟨⟨t, rfl, hu, ?_⟩, _, rfl⟩
        intro v hv
        rw [hparse] at hv
        cases hv

/-- **What goes wrong with a read**: nothing is left, or a line is no word. This can always be put in
words, for no number is named but counts. -/
theorem fault_of_read_error {c : Channel} {e : Fault} (h : c.read.1 = .error e) :
    (e.family = .channel ∨ e.family = .exhausted) ∧ e.writable = true := by
  cases c with
  | queue q =>
    simp only [read, Queue.read] at h
    split at h <;> cases h
    exact ⟨.inr rfl, rfl⟩
  | fixture f =>
    simp only [read, Fixture.read] at h
    split at h <;> cases h
    exact ⟨.inr rfl, rfl⟩
  | terminal t =>
    simp only [read, Terminal.read, Terminal.readLine] at h
    split at h
    · cases h
      exact ⟨.inr rfl, rfl⟩
    · split at h <;> cases h
      exact ⟨.inl rfl, rfl⟩

/-- A value that is refused leaves no trace. -/
theorem write_of_error {c : Channel} {v : Int} {e : Fault} (h : (c.write v).1 = .error e) :
    (c.write v).2 = c := by
  cases c with
  | queue q => cases h
  | terminal t =>
    simp only [write, Terminal.write] at h ⊢
    split at h
    · cases h
    · next hlong => rw [if_neg hlong]
  | fixture f =>
    simp only [write, Fixture.write] at h ⊢
    split at h
    · split at h
      · cases h
      · next hv => rw [if_neg hv]
    · rfl

end Channel

namespace Machine

variable {m m' : Machine} {e : Fault}

/-- **An action that fails** leaves the machine as it was, unless it was to take a value: then the
channel was read, and either had none to give or there was no place for it. -/
theorem act_failed {a : Action} (h : m.act a = (.error e, m')) :
    (∀ target next, a ≠ .take target next) ∧ m' = m ∨
      ∃ target next, a = .take target next ∧ m' = { m with channel := m.channel.read.2 } ∧
        (m.channel.read.1 = .error e ∨ (∃ v, m.channel.read.1 = .ok v) ∧ target = .error e) := by
  cases a with
  | refuse cause => cases h; exact .inl ⟨by simp, rfl⟩
  | take target next =>
    refine .inr ⟨target, next, rfl, ?_⟩
    simp only [act] at h
    cases hr : m.channel.read with
    | mk r channel =>
      rw [hr] at h
      cases r with
      | error cause => cases h; exact ⟨rfl, .inl rfl⟩
      | ok v =>
        cases target with
        | error cause => cases h; exact ⟨rfl, .inr ⟨⟨v, rfl⟩, rfl⟩⟩
        | ok address => cases h
  | emit value next =>
    refine .inl ⟨by simp, ?_⟩
    have hwrite := Channel.write_of_error (c := m.channel) (v := value) (e := e)
    simp only [act] at h
    cases hw : m.channel.write value with
    | mk r channel =>
      rw [hw] at h hwrite
      cases r with
      | ok u => cases h
      | error cause =>
        cases h
        have hsame : channel = m.channel := hwrite rfl
        rw [hsame]
  | put address value next => cases h
  | goto next => cases h
  | stop => cases h

theorem decode_of_fetch {i : Instruction} (h : m.fetch = .ok i) :
    Instruction.decode m.memory.cells m.ip = .ok i := by
  unfold fetch at h
  split at h
  · cases h
  · exact h

/-- Only an input instruction takes a value. -/
theorem fetch_of_take {target : Except Fault Int} {next : Int} (h : m.next = .take target next) :
    ∃ dest, m.fetch = .ok (.input dest) := by
  obtain ⟨i, hfetch, hi⟩ := fetch_of_next (m := m) (by rw [h]; simp)
  rw [h] at hi
  obtain ⟨dest, rfl, -⟩ := hi
  exact ⟨dest, hfetch⟩

/-- **A step that fails is atomic, but for one item of input.** Memory, pointer, count and limit are as
before. The cause is recorded if it is a fault of the machine, whose text can be written; else status
and cause are as before, too. The channel is untouched unless the instruction fetched is an input. Then
a prompting terminal has shown its prompt, and at most one item is gone: it is gone exactly if it was
read and its destination is outside, or if it is a line that is no word. -/
theorem step_atomic (hs : m.status = .running) (h : m.step = (.error e, m')) :
    m'.memory = m.memory ∧ m'.ip = m.ip ∧ m'.tick = m.tick ∧ m'.tickLimit = m.tickLimit ∧
    (if e.writable then m'.status = .errored ∧ m'.error = some e
      else m'.status = .running ∧ m'.error = m.error) ∧
    ((∀ dest, m.fetch ≠ .ok (.input dest)) → m'.channel = m.channel) ∧
    ∀ dest, m.fetch = .ok (.input dest) → ∃ address, dest = .address address ∧
      (m'.channel = m.channel.prompted ∨ Channel.Consumes m.channel.prompted m'.channel) ∧
      (Channel.Consumes m.channel.prompted m'.channel ↔
        (∃ v, m.channel.read.1 = .ok v) ∧ ¬ m.memory.Inside address ∨ m.channel.BadLine) := by
  obtain ⟨m₁, -, hm⟩ | ⟨e', m₁, ha, hm⟩ := step_cases hs
  · rw [hm] at h
    cases h
  rw [hm] at h
  cases h
  have hrecord : ∀ {m₁ : Machine}, m₁.status = m.status → m₁.error = m.error →
      if e.writable then (m₁.fail e).status = .errored ∧ (m₁.fail e).error = some e
        else (m₁.fail e).status = .running ∧ (m₁.fail e).error = m.error := by
    intro m₁ hstatus herror
    split
    · next hw => rw [fail_of_writable hw]; exact ⟨rfl, rfl⟩
    · next hw =>
      rw [fail_of_unwritable (Bool.not_eq_true _ ▸ hw)]
      exact ⟨hstatus.trans hs, herror⟩
  obtain ⟨hnot, rfl⟩ | ⟨target, next, hnext, rfl, hwhy⟩ := act_failed ha
  · -- the action was not to take a value, so the instruction is no input
    refine ⟨by simp, by simp, by simp, by simp, hrecord rfl rfl, fun _ => by simp, ?_⟩
    intro dest hfetch
    exact absurd (next_of_fetch hfetch) (hnot _ _)
  · refine ⟨by simp, by simp, by simp, by simp, hrecord rfl rfl, ?_, ?_⟩
    · intro hno
      obtain ⟨dest, hfetch⟩ := fetch_of_take hnext
      exact absurd hfetch (hno dest)
    · intro dest hfetch
      rw [next_of_fetch hfetch] at hnext
      cases hnext
      obtain ⟨address, rfl⟩ := Instruction.decode_destination (decode_of_fetch hfetch) rfl
      refine ⟨address, rfl, ?_⟩
      rw [fail_channel]
      rcases Channel.read_cases m.channel with ⟨hitem, hcons⟩ | ⟨⟨cause, hcause⟩, hbad, hkept⟩
      · refine ⟨.inr hcons, fun _ => ?_, fun _ => hcons⟩
        rcases hitem with ⟨v, hv⟩ | ⟨hbad, -⟩
        · -- the value was read, so it is the destination that failed
          rcases hwhy with hwhy | ⟨-, hwhy⟩
          · rw [hv] at hwhy
            cases hwhy
          · refine .inl ⟨⟨v, hv⟩, ?_⟩
            intro hin
            rw [Operand.target, Memory.locate, if_pos hin] at hwhy
            cases hwhy
        · exact .inr hbad
      · refine ⟨.inl hkept, fun hcons => absurd hkept hcons.ne, ?_⟩
        rintro (⟨⟨v, hv⟩, -⟩ | hb)
        · rw [hcause] at hv
          cases hv
        · exact absurd hb hbad

/-- A line is read for a cell that is not there: the prompt is shown, the line is gone, and nothing
else has changed. -/
theorem step_atomic_outside :
    let t : Terminal := { unread := ['5', '\n', '6', '\n'], prompt := "? " }
    let m : Machine := { memory := ⟨#[3, 7, 99]⟩, channel := .terminal t, tickLimit := 9 }
    m.step.1 = .error (.addressOutside 7 3) ∧ m.step.2.memory = m.memory ∧ m.step.2.ip = 0 ∧
      m.step.2.channel = .terminal ⟨['6', '\n'], "? ", "? "⟩ := by
  intro t m
  have hread : m.channel.read.1 = .ok 5 := by subst m; subst t; rfl
  have hstep : m.step = (.error (.addressOutside 7 3), m.step.2) := by subst m; subst t; rfl
  have hfetch : m.fetch = .ok (.input (.address 7)) := by rfl
  obtain ⟨hmem, hip, -, -, -, -, hinput⟩ := step_atomic rfl hstep
  obtain ⟨address, haddress, -, hgone⟩ := hinput _ hfetch
  cases haddress
  obtain ⟨-, hchannel⟩ := hgone.2 (.inl ⟨⟨5, hread⟩, by decide⟩)
  exact ⟨congrArg Prod.fst hstep, hmem, hip, hchannel⟩

end Machine

end Intcode
