import Intcode.Fault

/-!
# Memory

A fixed number of cells, each of which holds a word. Values are reduced to words
when they are loaded or written, and every access is checked against the size.

* `Memory.read_eq_ok_iff`, `Memory.write_eq_ok_iff`: an access succeeds exactly
  when its address is inside.
* `Memory.get?_write`: a write changes the cell at its address and no other.
-/

namespace Intcode

/-- The cells of a machine. -/
structure Memory where
  cells : Array Int
  deriving DecidableEq, Repr

namespace Memory

/-- Loads an image: each number becomes a word. -/
def ofImage (image : List Int) : Memory := ⟨(image.map Word.wrap).toArray⟩

/-- The number of cells. -/
def size (m : Memory) : Nat := m.cells.size

/-- The cells in order. -/
def toList (m : Memory) : List Int := m.cells.toList

/-- Is the address that of a cell? -/
def Inside (m : Memory) (address : Int) : Prop := 0 ≤ address ∧ address < m.size

instance (m : Memory) (address : Int) : Decidable (m.Inside address) :=
  inferInstanceAs (Decidable (_ ∧ _))

/-- The cell at an address, if there is one. -/
def get? (m : Memory) (address : Int) : Option Int :=
  if 0 ≤ address then m.cells[address.toNat]? else none

/-- Reads the cell at an address. -/
def read (m : Memory) (address : Int) : Except Fault Int :=
  match m.get? address with
  | some v => .ok v
  | none => .error (.addressOutside address m.size)

/-- An address, if it is that of a cell. -/
def locate (m : Memory) (address : Int) : Except Fault Int :=
  if m.Inside address then .ok address else .error (.addressOutside address m.size)

/-- The memory with a word in the cell at an address inside. -/
def put (m : Memory) (address value : Int) : Memory :=
  ⟨m.cells.setIfInBounds address.toNat (Word.wrap value)⟩

/-- Writes a word to the cell at an address. -/
def write (m : Memory) (address value : Int) : Except Fault Memory :=
  (m.locate address).map (m.put · value)

@[simp] theorem size_ofImage (image : List Int) : (ofImage image).size = image.length := by
  simp [ofImage, size]

@[simp] theorem toList_ofImage (image : List Int) : (ofImage image).toList = image.map Word.wrap := by
  simp [ofImage, toList]

/-- A cell exists exactly at the addresses inside. -/
theorem isSome_get?_iff {m : Memory} {a : Int} : (m.get? a).isSome ↔ m.Inside a := by
  unfold get? Inside size
  by_cases h : 0 ≤ a
  · simp only [h, if_true, true_and, isSome_getElem?]
    omega
  · simp [h]

/-- **A read succeeds exactly at an address inside.** -/
theorem read_eq_ok_iff {m : Memory} {a v : Int} : m.read a = .ok v ↔ m.get? a = some v := by
  unfold read
  cases h : m.get? a <;> simp

/-- A write succeeds exactly at an address inside. -/
theorem write_eq_ok_iff {m m' : Memory} {a v : Int} :
    m.write a v = .ok m' ↔ m.Inside a ∧ m' = m.put a v := by
  unfold write locate
  by_cases h : m.Inside a
  · simp [h, Except.map, eq_comm]
  · simp [h, Except.map]

/-- **A write changes the cell at its address and no other.** -/
theorem get?_write {m m' : Memory} {a v : Int} (h : m.write a v = .ok m') (b : Int) :
    m'.get? b = if b = a then some (Word.wrap v) else m.get? b := by
  obtain ⟨⟨h0, h1⟩, rfl⟩ := write_eq_ok_iff.1 h
  unfold size at h1
  unfold get?
  by_cases hb : 0 ≤ b
  · simp only [hb, if_true, put, Array.getElem?_setIfInBounds]
    by_cases hab : b = a
    · subst hab
      simp only [if_true]
      rw [if_pos (by omega)]
    · have : a.toNat ≠ b.toNat := by omega
      simp [hab, this]
  · have : b ≠ a := by omega
    simp [hb, this]

end Memory

end Intcode
