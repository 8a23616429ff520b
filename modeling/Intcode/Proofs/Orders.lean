import Mathlib.Data.Nat.Factorial.Basic
import Mathlib.Data.List.Perm.Basic
import Intcode.Arrangement

/-!
# All orders, each once

The arrangements of a list are its permutations. Members are told apart by their
place, so the arrangements of `n` members are those of the places `0, …, n - 1`,
read off in the list; and those come in lexicographic order, each of them once.

* `mem_arrangements_iff`: the arrangements are the permutations.
* `length_arrangements`: there are `n!` of them.
* `pairwise_arrangements`: for an increasing list they come in lexicographic order.
* `arrangements_eq_map`: arranging a list is arranging its places.
-/

namespace Intcode

variable {α β : Type}

theorem perm_of_mem_picks {xs : List α} {p : α × List α} (h : p ∈ picks xs) :
    (p.1 :: p.2).Perm xs := by
  induction xs generalizing p with
  | nil => cases h
  | cons x xs ih =>
    rw [picks, List.mem_cons, List.mem_map] at h
    rcases h with rfl | ⟨p', hp', rfl⟩
    · exact List.Perm.refl _
    · exact (List.Perm.swap x p'.1 p'.2).trans ((ih hp').cons x)

theorem length_of_mem_picks {xs : List α} {p : α × List α} (h : p ∈ picks xs) :
    p.2.length + 1 = xs.length :=
  (perm_of_mem_picks h).length_eq

theorem exists_mem_picks {xs : List α} {x : α} (h : x ∈ xs) : ∃ rest, (x, rest) ∈ picks xs := by
  induction xs with
  | nil => cases h
  | cons y ys ih =>
    rcases List.mem_cons.1 h with rfl | h
    · exact ⟨ys, List.mem_cons_self⟩
    · obtain ⟨rest, hrest⟩ := ih h
      exact ⟨y :: rest, List.mem_cons_of_mem _ (List.mem_map.2 ⟨_, hrest, rfl⟩)⟩

theorem map_fst_picks (xs : List α) : (picks xs).map Prod.fst = xs := by
  induction xs with
  | nil => rfl
  | cons x xs ih =>
    rw [picks, List.map_cons, List.map_map]
    congr 1

theorem sublist_of_mem_picks {xs : List α} {p : α × List α} (h : p ∈ picks xs) :
    p.2.Sublist xs := by
  induction xs generalizing p with
  | nil => cases h
  | cons x xs ih =>
    rw [picks, List.mem_cons, List.mem_map] at h
    rcases h with rfl | ⟨p', hp', rfl⟩
    · exact List.sublist_cons_self x xs
    · exact (ih hp').cons_cons x

theorem picks_map (f : α → β) (xs : List α) :
    picks (xs.map f) = (picks xs).map fun p => (f p.1, p.2.map f) := by
  induction xs with
  | nil => rfl
  | cons x xs ih =>
    rw [List.map_cons, picks, ih, picks, List.map_cons, List.map_map, List.map_map]
    rfl

theorem mem_arrangementsOf_iff {n : Nat} {xs ys : List α} (hn : xs.length = n) :
    ys ∈ arrangementsOf n xs ↔ ys.Perm xs := by
  induction n generalizing xs ys with
  | zero =>
    have hxs : xs = [] := List.length_eq_zero_iff.1 hn
    rw [hxs, arrangementsOf, List.mem_singleton, List.perm_nil]
  | succ n ih =>
    rw [arrangementsOf, List.mem_flatMap]
    constructor
    · rintro ⟨p, hp, hys⟩
      obtain ⟨zs, hzs, rfl⟩ := List.mem_map.1 hys
      have hlen := length_of_mem_picks hp
      exact (((ih (by omega)).1 hzs).cons p.1).trans (perm_of_mem_picks hp)
    · intro h
      cases ys with
      | nil =>
        have := h.length_eq
        rw [List.length_nil] at this
        omega
      | cons y zs =>
        obtain ⟨rest, hrest⟩ := exists_mem_picks (h.subset List.mem_cons_self)
        have hlen : rest.length + 1 = n + 1 := (length_of_mem_picks hrest).trans hn
        -- what follows the first member is an order of what is left without it
        have hzs : zs.Perm rest := (h.trans (perm_of_mem_picks hrest).symm).cons_inv
        exact ⟨(y, rest), hrest, List.mem_map.2 ⟨zs, (ih (Nat.succ.inj hlen)).2 hzs, rfl⟩⟩

/-- **The arrangements of a list are its permutations.** -/
theorem mem_arrangements_iff {xs ys : List α} : ys ∈ arrangements xs ↔ ys.Perm xs :=
  mem_arrangementsOf_iff rfl

theorem length_arrangementsOf {n : Nat} {xs : List α} (hn : xs.length = n) :
    (arrangementsOf n xs).length = n.factorial := by
  induction n generalizing xs with
  | zero => rfl
  | succ n ih =>
    have hcount : (picks xs).length = n + 1 := by
      rw [← hn, ← congrArg List.length (map_fst_picks xs), List.length_map]
    -- each choice of the first member leaves `n` members
    have hrest : ∀ p ∈ picks xs, ((arrangementsOf n p.2).map (p.1 :: ·)).length = n.factorial := by
      intro p hp
      have hlen := length_of_mem_picks hp
      rw [List.length_map]
      exact ih (by omega)
    rw [arrangementsOf, List.length_flatMap, List.map_congr_left hrest, List.map_const',
      List.sum_replicate_nat, hcount, Nat.factorial_succ]

/-- There are `n!` arrangements of `n` members. -/
theorem length_arrangements (xs : List α) : (arrangements xs).length = xs.length.factorial :=
  length_arrangementsOf rfl

theorem pairwise_arrangementsOf [LT α] (n : Nat) {xs : List α} (h : xs.Pairwise (· < ·)) :
    (arrangementsOf n xs).Pairwise (· < ·) := by
  induction n generalizing xs with
  | zero => exact List.pairwise_singleton _ _
  | succ n ih =>
    rw [arrangementsOf, List.pairwise_flatMap]
    constructor
    · -- with the same first member, the rest decides
      intro p hp
      rw [List.pairwise_map]
      exact (ih (h.sublist (sublist_of_mem_picks hp))).imp fun hlt => List.Lex.cons hlt
    · -- else the first member does
      have hfst : (picks xs).Pairwise fun p q => p.1 < q.1 := by
        rw [← List.pairwise_map, map_fst_picks]
        exact h
      refine hfst.imp ?_
      intro p q hpq ys hys zs hzs
      obtain ⟨ys', -, rfl⟩ := List.mem_map.1 hys
      obtain ⟨zs', -, rfl⟩ := List.mem_map.1 hzs
      exact List.Lex.rel hpq

/-- **The arrangements of an increasing list come in lexicographic order.** -/
theorem pairwise_arrangements [LT α] {xs : List α} (h : xs.Pairwise (· < ·)) :
    (arrangements xs).Pairwise (· < ·) :=
  pairwise_arrangementsOf _ h

theorem arrangementsOf_map (f : α → β) (n : Nat) (xs : List α) :
    arrangementsOf n (xs.map f) = (arrangementsOf n xs).map (List.map f) := by
  induction n generalizing xs with
  | zero => rfl
  | succ n ih =>
    rw [arrangementsOf, arrangementsOf, picks_map, List.flatMap_map, List.map_flatMap]
    congr 1
    funext p
    rw [ih, List.map_map, List.map_map]
    rfl

/-- The members of a list at the given places, in this order. -/
def pickAt (xs : List Int) (places : List Nat) : List Int := places.map (xs.getD · 0)

/-- **Arranging a list is arranging its places.** -/
theorem arrangements_eq_map (xs : List Int) :
    arrangements xs = (arrangements (List.range xs.length)).map (pickAt xs) := by
  have hxs : (List.range xs.length).map (xs.getD · 0) = xs := by
    apply List.ext_getElem
    · simp
    · intro i h₁ h₂
      simp [h₂]
  have hmap := arrangementsOf_map (xs.getD · 0) xs.length (List.range xs.length)
  rw [hxs] at hmap
  rw [arrangements, hmap, arrangements, List.length_range]
  rfl

end Intcode
