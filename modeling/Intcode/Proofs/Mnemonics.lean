import Intcode.Proofs.NumberLines
import Intcode.Proofs.RunLog

/-!
# Mnemonics

The text of an instruction tells which instruction it is, and the line of its trace tells
the whole record. Both are taken apart from the left: each part ends where the first
character stands that cannot belong to it.

* `Text.append_inj_of_span`: texts that are equal are split alike.
* `Text.intercalate_inj`: texts with separators between them, likewise.
* `Operand.text_inj`: operands that are written alike are equal.
* `Instruction.ext_operands`: an instruction is its operation and its operands.
* `Instruction.mnemonic_inj`: instructions that are written alike are equal.
* `Event.message_decoded_inj`: records of the trace that are written alike are equal.
* `Instruction.mnemonic_identifies`: what a mnemonic and what a line of the trace tell.
-/

namespace Intcode

namespace Text

/-- **Texts that are equal are split alike**, if their first parts are made up of one kind of
characters and end where another one follows. -/
theorem append_inj_of_span {p : Char → Bool} {u u' v v' : List Char}
    (hu : ∀ c ∈ u, p c = true) (hu' : ∀ c ∈ u', p c = true)
    (hv : ∀ c ∈ v.head?, p c = false) (hv' : ∀ c ∈ v'.head?, p c = false)
    (h : u ++ v = u' ++ v') : u = u' ∧ v = v' := by
  have hstop : ∀ {w : List Char}, (∀ c ∈ w.head?, p c = false) → w.takeWhile p = [] := by
    intro w hw
    cases w with
    | nil => rfl
    | cons c w => rw [List.takeWhile_cons_of_neg (by simp [hw c rfl])]
  have htake := congrArg (List.takeWhile p) h
  rw [List.takeWhile_append_of_pos hu, List.takeWhile_append_of_pos hu', hstop hv, hstop hv',
    List.append_nil, List.append_nil] at htake
  subst htake
  exact ⟨rfl, List.append_cancel_left h⟩

/-- A text ends where the first character stands that it does not hold. -/
theorem append_cons_inj {c : Char} {u u' v v' : List Char} (hu : c ∉ u) (hu' : c ∉ u')
    (h : u ++ c :: v = u' ++ c :: v') : u = u' ∧ v = v' := by
  have hother : ∀ {w : List Char}, c ∉ w → ∀ d ∈ w, decide (d ≠ c) = true := fun hw d hd =>
    decide_eq_true (ne_of_mem_of_not_mem hd hw)
  have hhead : ∀ {w : List Char}, ∀ d ∈ (c :: w).head?, decide (d ≠ c) = false := by
    intro w d hd
    cases hd
    simp
  obtain ⟨hword, hrest⟩ := append_inj_of_span (hother hu) (hother hu') hhead hhead h
  exact ⟨hword, (List.cons.inj hrest).2⟩

/-- **Texts with separators between them are told apart**, if no text holds the character with which
the separator begins. -/
theorem intercalate_inj {c : Char} {sep : List Char} {ws ws' : List (List Char)}
    (hws : ∀ w ∈ ws, c ∉ w) (hws' : ∀ w ∈ ws', c ∉ w) (hlen : ws.length = ws'.length)
    (h : (c :: sep).intercalate ws = (c :: sep).intercalate ws') : ws = ws' := by
  induction ws generalizing ws' with
  | nil => exact (List.length_eq_zero_iff.1 hlen.symm).symm
  | cons w ws ih =>
    obtain ⟨w', ws', rfl⟩ := List.exists_cons_of_length_eq_add_one hlen.symm
    obtain ⟨hw, hrest⟩ := List.forall_mem_cons.1 hws
    obtain ⟨hw', hrest'⟩ := List.forall_mem_cons.1 hws'
    rw [List.length_cons, List.length_cons, Nat.succ_inj] at hlen
    cases ws with
    | nil =>
      obtain rfl := List.length_eq_zero_iff.1 hlen.symm
      simpa using h
    | cons x ws =>
      cases ws' with
      | nil => cases hlen
      | cons x' ws' =>
        rw [List.intercalate_cons_cons, List.intercalate_cons_cons, List.append_assoc,
          List.append_assoc, List.cons_append, List.cons_append] at h
        obtain ⟨rfl, hbehind⟩ := append_cons_inj hw hw' h
        rw [ih hrest hrest' hlen (List.append_cancel_left hbehind)]

end Text

namespace Operand

theorem toList_text_address (a : Int) :
    (address a).text.toList = '[' :: ((toString a).toList ++ [']']) := by
  simp [text]

theorem toList_text_value (v : Int) : (value v).text.toList = '#' :: (toString v).toList := by
  simp [text]

/-- **Operands that are written alike are equal.** -/
theorem text_inj {o o' : Operand} (h : o.text.toList = o'.text.toList) : o = o' := by
  cases o with
  | address a =>
    cases o' with
    | address b =>
      rw [toList_text_address, toList_text_address] at h
      have hdigits := List.append_cancel_right (List.cons.inj h).2
      rw [Numeral.toString_inj.1 hdigits]
    | value w =>
      rw [toList_text_address, toList_text_value] at h
      cases h
  | value v =>
    cases o' with
    | address b =>
      rw [toList_text_value, toList_text_address] at h
      cases h
    | value w =>
      rw [toList_text_value, toList_text_value] at h
      rw [Numeral.toString_inj.1 (List.cons.inj h).2]

/-- There is no comma in an operand. -/
theorem comma_not_mem_text (o : Operand) : ',' ∉ o.text.toList := by
  have hnumber : ∀ v : Int, ',' ∉ (toString v).toList := by
    intro v hcomma
    rcases Numeral.mem_toString hcomma with h | h <;> cases h
  cases o with
  | address a =>
    rw [toList_text_address, List.mem_cons, List.mem_append, List.mem_singleton]
    rintro (h | h | h)
    · cases h
    · exact hnumber a h
    · cases h
  | value v =>
    rw [toList_text_value, List.mem_cons]
    rintro (h | h)
    · cases h
    · exact hnumber v h

end Operand

namespace Opcode

theorem space_not_mem_name (op : Opcode) : ' ' ∉ op.name.toList := by
  cases op <;> decide

theorem name_inj {op op' : Opcode} (h : op.name.toList = op'.name.toList) : op = op' := by
  cases op <;> cases op' <;> first | rfl | exact absurd h (by decide)

end Opcode

theorem BinaryOp.opcode_inj {op op' : BinaryOp} (h : op.opcode = op'.opcode) : op = op' := by
  cases op <;> cases op' <;> first | rfl | cases h

namespace Instruction

variable {i j : Instruction}

/-- **An instruction is its operation and its operands.** -/
theorem ext_operands (hop : i.opcode = j.opcode) (h : i.operands = j.operands) : i = j := by
  cases i with
  | binary op left right dest =>
    cases j with
    | binary op' left' right' dest' =>
      rw [BinaryOp.opcode_inj hop]
      cases h
      rfl
    | _ => cases h
  | input dest =>
    cases j with
    | input dest' => cases h; rfl
    | output source => cases hop
    | _ => cases h
  | output source =>
    cases j with
    | output source' => cases h; rfl
    | input dest => cases hop
    | _ => cases h
  | jump sense condition target =>
    cases j with
    | jump sense' condition' target' =>
      have hsense : sense = sense' := by
        cases sense <;> cases sense' <;> first | rfl | cases hop
      rw [hsense]
      cases h
      rfl
    | _ => cases h
  | halt =>
    cases j with
    | halt => rfl
    | _ => cases h

/-- What follows the name of the operation in a mnemonic. -/
def argumentText : List Operand → List Char
  | [] => []
  | operands => ' ' :: (", ".intercalate (operands.map Operand.text)).toList

theorem toList_mnemonic (i : Instruction) :
    i.mnemonic.toList = i.opcode.name.toList ++ argumentText i.operands := by
  unfold mnemonic argumentText
  cases i.operands with
  | nil => simp
  | cons o os => simp [String.toList_append]

theorem argumentText_head (operands : List Operand) :
    ∀ c ∈ (argumentText operands).head?, decide (c ≠ ' ') = false := by
  intro c hc
  cases operands with
  | nil => cases hc
  | cons o os =>
    cases hc
    rfl

/-- **Operands that are listed alike are equal**, if there are equally many. -/
theorem argumentText_inj {os os' : List Operand} (hlen : os.length = os'.length)
    (h : argumentText os = argumentText os') : os = os' := by
  cases os with
  | nil => exact (List.length_eq_zero_iff.1 hlen.symm).symm
  | cons o os =>
    obtain ⟨o', os', rfl⟩ := List.exists_cons_of_length_eq_add_one hlen.symm
    have hlist := (List.cons.inj h).2
    rw [String.toList_intercalate, String.toList_intercalate, List.map_map, List.map_map] at hlist
    have hfree : ∀ os : List Operand, ∀ w ∈ os.map (String.toList ∘ Operand.text), ',' ∉ w := by
      intro os
      rw [List.forall_mem_map]
      exact fun o _ => o.comma_not_mem_text
    have htexts := Text.intercalate_inj (hfree _) (hfree _) (by simpa using hlen) hlist
    exact List.map_injective_iff.2 (fun _ _ => Operand.text_inj) htexts

/-- **Instructions that are written alike are equal.** -/
theorem mnemonic_inj (h : i.mnemonic = j.mnemonic) : i = j := by
  have hlist := congrArg String.toList h
  rw [toList_mnemonic, toList_mnemonic] at hlist
  -- the name ends at the first space
  have hname : ∀ i : Instruction, ∀ c ∈ i.opcode.name.toList, decide (c ≠ ' ') = true :=
    fun i c hc => decide_eq_true (ne_of_mem_of_not_mem hc i.opcode.space_not_mem_name)
  obtain ⟨hop, htext⟩ := Text.append_inj_of_span (hname i) (hname j) (argumentText_head _)
    (argumentText_head _) hlist
  have hop := Opcode.name_inj hop
  have hlen : i.operands.length = j.operands.length := by
    rw [length_operands, length_operands, hop]
  exact ext_operands hop (argumentText_inj hlen htext)

end Instruction

namespace Event

theorem toList_padLeft (width : Nat) (s : String) :
    (padLeft width s).toList = List.replicate (width - s.length) ' ' ++ s.toList := by
  simp [padLeft]

/-- May the character stand in a written number? -/
def numeric (c : Char) : Bool := c = '-' || c.isDigit

theorem numeric_of_mem_toString {x : Int} {c : Char} (h : c ∈ (toString x).toList) :
    numeric c = true := by
  rcases Numeral.mem_toString h with rfl | h
  · rfl
  · simp [numeric, h]

/-- **A number in a column is told from what follows**, if that does not begin like a number. -/
theorem padLeft_inj {width : Nat} {x y : Int} {r r' : List Char}
    (hr : ∀ c ∈ r.head?, numeric c = false) (hr' : ∀ c ∈ r'.head?, numeric c = false)
    (h : (padLeft width (toString x)).toList ++ r = (padLeft width (toString y)).toList ++ r') :
    x = y ∧ r = r' := by
  rw [toList_padLeft, toList_padLeft, List.append_assoc, List.append_assoc] at h
  have hblank : ∀ n, ∀ c ∈ List.replicate n ' ', decide (c = ' ') = true := fun n c hc =>
    decide_eq_true (List.eq_of_mem_replicate hc)
  -- a number is not empty and holds no space, so the spaces end with the column
  have hnumber : ∀ (z : Int) (r : List Char),
      ∀ c ∈ ((toString z).toList ++ r).head?, decide (c = ' ') = false := by
    intro z r c hc
    obtain ⟨d, digits, hdigits⟩ := List.exists_cons_of_ne_nil (Numeral.toString_ne_nil z)
    have hd : d ∈ (toString z).toList := by rw [hdigits]; exact List.mem_cons_self
    rw [hdigits] at hc
    cases hc
    apply decide_eq_false
    rintro rfl
    cases numeric_of_mem_toString hd
  obtain ⟨-, hrest⟩ :=
    Text.append_inj_of_span (hblank _) (hblank _) (hnumber x r) (hnumber y r') h
  obtain ⟨hdigits, hrest⟩ := Text.append_inj_of_span (fun _ => numeric_of_mem_toString)
    (fun _ => numeric_of_mem_toString) hr hr' hrest
  exact ⟨Numeral.toString_inj.1 hdigits, hrest⟩

theorem length_padRight_name (s : Status) : (padRight 8 s.name).toList.length = 8 := by
  cases s <;> decide

theorem padRight_name_inj {s s' : Status}
    (h : (padRight 8 s.name).toList = (padRight 8 s'.name).toList) : s = s' := by
  cases s <;> cases s' <;> first | rfl | exact absurd h (by decide)

theorem toList_message_decoded (s : Status) (tick : Nat) (ip : Int) (i : Instruction) :
    (decoded s tick ip i).message.toList =
      "STATE: ".toList ++ ((padRight 8 s.name).toList ++
        ((" STEP: " ++ padRight 10 "DECODE" ++ " TICK: ").toList ++
          ((padLeft 6 (toString (tick : Int))).toList ++ (" IP: ".toList ++
            ((padLeft 5 (toString ip)).toList ++ ("\tINSTR: ".toList ++ i.mnemonic.toList)))))) := by
  have htick : toString (tick : Int) = toString tick := rfl
  rw [htick]
  unfold message
  simp only [String.toList_append, List.append_assoc]

theorem numeric_head {s : String} {d : Char} (hs : s.toList.head? = some d)
    (hd : numeric d = false) (r : List Char) : ∀ c ∈ (s.toList ++ r).head?, numeric c = false := by
  intro c hc
  rw [List.head?_append, hs] at hc
  cases hc
  exact hd

/-- **Records of the trace that are written alike are equal.** -/
theorem message_decoded_inj {s s' : Status} {tick tick' : Nat} {ip ip' : Int} {i j : Instruction}
    (h : (decoded s tick ip i).message = (decoded s' tick' ip' j).message) :
    decoded s tick ip i = decoded s' tick' ip' j := by
  have hlist := congrArg String.toList h
  rw [toList_message_decoded, toList_message_decoded] at hlist
  obtain ⟨hstatus, hstep⟩ := List.append_inj (List.append_cancel_left hlist)
    (by rw [length_padRight_name, length_padRight_name])
  -- the number of the step ends at a space, and the pointer at a tab
  have hspace := numeric_head (s := " IP: ") (d := ' ') rfl rfl
  have htab := numeric_head (s := "\tINSTR: ") (d := '\t') rfl rfl
  obtain ⟨htick, hpointer⟩ :=
    padLeft_inj (hspace _) (hspace _) (List.append_cancel_left hstep)
  obtain ⟨hip, hinstruction⟩ :=
    padLeft_inj (htab _) (htab _) (List.append_cancel_left hpointer)
  have hmnemonic := String.toList_inj.1 (List.append_cancel_left hinstruction)
  have htick : tick = tick' := by omega
  rw [padRight_name_inj hstatus, htick, hip, Instruction.mnemonic_inj hmnemonic]

theorem length_level_name (l : Level) : l.name.toList.length = 5 := by
  cases l <;> decide

/-- The line of an event tells its text. -/
theorem message_of_line {e e' : Event} (h : e.line = e'.line) : e.message = e'.message := by
  have hlist := congrArg String.toList h
  simp only [line, String.toList_append, List.append_assoc] at hlist
  obtain ⟨-, hbehind⟩ := List.append_inj hlist (by rw [length_level_name, length_level_name])
  exact String.toList_inj.1 (List.append_cancel_left hbehind)

/-- **No other event has the line of a record of the trace.** -/
theorem line_eq_decoded_iff {e : Event} {s : Status} {tick : Nat} {ip : Int} {i : Instruction} :
    e.line = (decoded s tick ip i).line ↔ e = decoded s tick ip i := by
  refine ⟨?_, fun h => by rw [h]⟩
  intro h
  have hmessage := message_of_line h
  have htrace : e.isTrace = true := by
    rw [isTrace_iff_message, hmessage]
    exact prefix_message s tick ip i
  cases e with
  | decoded s' tick' ip' j => exact message_decoded_inj hmessage
  | _ => cases htrace

end Event

/-- **A mnemonic identifies its instruction**, whatever numbers are its operands, and also if a value
stands where a destination belongs. So a line of the trace identifies its record, and with it the
instruction that was decoded: no other event of any kind has this line. -/
theorem Instruction.mnemonic_identifies :
    (∀ i j : Instruction, i.mnemonic = j.mnemonic ↔ i = j) ∧
    ∀ (e : Event) (s : Status) (tick : Nat) (ip : Int) (i : Instruction),
      e.line = (Event.decoded s tick ip i).line ↔ e = .decoded s tick ip i := by
  constructor
  · intro i j
    exact ⟨mnemonic_inj, fun h => by rw [h]⟩
  · intro e s tick ip i
    exact Event.line_eq_decoded_iff

-- the operands are told apart by their kind and by their place
example : (Instruction.binary .add (.address 1) (.value 2) (.value (-3))).mnemonic =
    "ADD [1], #2, #-3" := by decide

end Intcode
