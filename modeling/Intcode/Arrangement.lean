/-!
# Arrangements of a list

All orders of the members of a list. Members are told apart by their position, so
equal members are arranged like any others. Orders come in lexicographic order of
the positions: first all that start with the first member.

`visit` goes through them one by one and may stop early; `arrangements` is the
list that it goes through.

* `visit_eq_foldlM`: visiting is folding over the list of arrangements.
-/

namespace Intcode

/-- Each member of a list with the members left when it is taken out. -/
def picks {α : Type} : List α → List (α × List α)
  | [] => []
  | x :: xs => (x, xs) :: (picks xs).map fun p => (p.1, x :: p.2)

/-- The arrangements of `n` members of a list. -/
def arrangementsOf {α : Type} : Nat → List α → List (List α)
  | 0, _ => [[]]
  | n + 1, xs => (picks xs).flatMap fun p => (arrangementsOf n p.2).map (p.1 :: ·)

/-- The arrangements of a list. -/
def arrangements {α : Type} (xs : List α) : List (List α) := arrangementsOf xs.length xs

/-- Visits the arrangements of `n` members of a list, each behind the members chosen before (the
latest first), and stops at the first one where `f` fails. -/
def visitFrom {α β ε : Type} (f : β → List α → Except ε β) :
    Nat → List α → List α → β → Except ε β
  | 0, chosen, _, b => f b chosen.reverse
  | n + 1, chosen, xs, b =>
    (picks xs).foldlM (fun b p => visitFrom f n (p.1 :: chosen) p.2 b) b

/-- Visits the arrangements of a list in order, and stops at the first one where `f` fails. -/
def visit {α β ε : Type} (f : β → List α → Except ε β) (xs : List α) (b : β) : Except ε β :=
  visitFrom f xs.length [] xs b

theorem foldlM_flatMap {α β γ ε : Type} (f : γ → β → Except ε γ) (g : α → List β) :
    ∀ (l : List α) (c : γ),
      (l.flatMap g).foldlM f c = l.foldlM (fun c a => (g a).foldlM f c) c
  | [], _ => rfl
  | a :: l, c => by
    simp only [List.flatMap_cons, List.foldlM_append, List.foldlM_cons]
    congr 1
    funext c'
    exact foldlM_flatMap f g l c'

theorem visitFrom_eq_foldlM {α β ε : Type} (f : β → List α → Except ε β) :
    ∀ (n : Nat) (chosen xs : List α) (b : β),
      visitFrom f n chosen xs b =
        ((arrangementsOf n xs).map (chosen.reverse ++ ·)).foldlM f b
  | 0, chosen, xs, b => by
    simp [visitFrom, arrangementsOf]
  | n + 1, chosen, xs, b => by
    simp only [visitFrom, arrangementsOf, List.map_flatMap, foldlM_flatMap]
    congr 1
    funext b p
    rw [visitFrom_eq_foldlM f n]
    simp [Function.comp_def]

/-- **Visiting is folding over the list of arrangements.** -/
theorem visit_eq_foldlM {α β ε : Type} (f : β → List α → Except ε β) (xs : List α) (b : β) :
    visit f xs b = (arrangements xs).foldlM f b := by
  simp [visit, arrangements, visitFrom_eq_foldlM]

end Intcode
