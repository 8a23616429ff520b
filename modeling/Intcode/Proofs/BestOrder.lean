import Mathlib.Data.List.Lex
import Intcode.Chain.Search
import Intcode.Proofs.Orders

/-!
# The first best order

The search goes through the orders of a pool one by one. What it has found after
some of them is the first best of these, and an order on which the chain fails ends
it with the fault of that order.

* `FirstBest`: what the search has found after a list of orders.
* `foldlM_tryOrder_ok`, `foldlM_tryOrder_error`: how a list of orders is gone
  through.
* `search_of_ok`, `search_of_error`: what the search gives.
* `search_firstBest`: the same in terms of places: the best order is the one whose
  places come first, and so is the order that fails.
* `search_perm`: the best signal does not depend on the order of the pool.
-/

namespace Intcode.Chain

variable {c : Chain} {pool : List Int}

/-- The finding is the first best in a list of orders: the chain succeeds on all of them, with a
smaller signal on those before it and with no greater one on those behind it. -/
def FirstBest (c : Chain) (orders : List (List Int)) (best : Finding) : Prop :=
  ∃ before behind, orders = before ++ best.phases :: behind ∧ c.run best.phases = .ok best.signal ∧
    (∀ o ∈ before, ∃ s, c.run o = .ok s ∧ s < best.signal) ∧
    ∀ o ∈ behind, ∃ s, c.run o = .ok s ∧ s ≤ best.signal

theorem FirstBest.run_phases {orders : List (List Int)} {best : Finding}
    (h : FirstBest c orders best) : c.run best.phases = .ok best.signal := by
  obtain ⟨-, -, -, hbest, -⟩ := h
  exact hbest

theorem FirstBest.run_le {orders : List (List Int)} {best : Finding}
    (h : FirstBest c orders best) {o : List Int} (ho : o ∈ orders) :
    ∃ s, c.run o = .ok s ∧ s ≤ best.signal := by
  obtain ⟨before, behind, rfl, hbest, hbefore, hbehind⟩ := h
  rcases List.mem_append.1 ho with ho | ho
  · obtain ⟨s, hs, hlt⟩ := hbefore o ho
    exact ⟨s, hs, by omega⟩
  · rcases List.mem_cons.1 ho with rfl | ho
    · exact ⟨best.signal, hbest, by omega⟩
    · exact hbehind o ho

/-- In an increasing list the first best is the least order with its signal. -/
theorem FirstBest.least {orders : List (List Int)} {best : Finding} (h : FirstBest c orders best)
    (hinc : orders.Pairwise (· < ·)) {o : List Int} (ho : o ∈ orders)
    (hs : c.run o = .ok best.signal) : o = best.phases ∨ best.phases < o := by
  obtain ⟨before, behind, rfl, -, hbefore, -⟩ := h
  rcases List.mem_append.1 ho with ho | ho
  · -- those before it do not attain the signal
    obtain ⟨s, hs', hlt⟩ := hbefore o ho
    rw [hs] at hs'
    cases hs'
    omega
  · rcases List.mem_cons.1 ho with ho | ho
    · exact .inl ho
    · exact .inr ((List.pairwise_cons.1 (List.pairwise_append.1 hinc).2.1).1 o ho)

/-- One order more, and the better of the two is the first best. -/
theorem FirstBest.better {orders : List (List Int)} {best : Finding} (h : FirstBest c orders best)
    {o : List Int} {s : Int} (hs : c.run o = .ok s) :
    FirstBest c (orders ++ [o]) (better (some best) ⟨s, o⟩) := by
  by_cases hlt : s > best.signal
  · -- all orders so far are before the new one, and have a smaller signal
    have hnew : Chain.better (some best) ⟨s, o⟩ = ⟨s, o⟩ := if_pos hlt
    rw [hnew]
    refine ⟨orders, [], rfl, hs, ?_, by simp⟩
    intro o' ho'
    obtain ⟨s', hs', hle⟩ := h.run_le ho'
    exact ⟨s', hs', by simp only; omega⟩
  · have hold : Chain.better (some best) ⟨s, o⟩ = best := if_neg hlt
    obtain ⟨before, behind, rfl, hbest, hbefore, hbehind⟩ := h
    rw [hold]
    refine ⟨before, behind ++ [o], by simp, hbest, hbefore, ?_⟩
    intro o' ho'
    rcases List.mem_append.1 ho' with ho' | ho'
    · exact hbehind o' ho'
    · rw [List.mem_singleton.1 ho']
      exact ⟨s, hs, by omega⟩

theorem tryOrder_ok {o : List Int} {s : Int} (hs : c.run o = .ok s) (best : Option Finding) :
    c.tryOrder best o = .ok (some (better best ⟨s, o⟩)) := by
  simp only [tryOrder, hs]

theorem tryOrder_error {o : List Int} {e : Fault} (he : c.run o = .error e)
    (best : Option Finding) : c.tryOrder best o = .error e := by
  simp only [tryOrder, he]

/-- **What is found grows to the first best of all orders**, where the chain succeeds on them. -/
theorem foldlM_tryOrder_ok {seen orders : List (List Int)} {best : Finding}
    (h : FirstBest c seen best) (hok : ∀ o ∈ orders, ∃ s, c.run o = .ok s) :
    ∃ best', orders.foldlM c.tryOrder (some best) = .ok (some best') ∧
      FirstBest c (seen ++ orders) best' := by
  induction orders generalizing seen best with
  | nil => exact ⟨best, rfl, by rw [List.append_nil]; exact h⟩
  | cons o orders ih =>
    obtain ⟨s, hs⟩ := hok o List.mem_cons_self
    obtain ⟨best', hfold, hbest'⟩ :=
      ih (h.better hs) fun o' ho' => hok o' (List.mem_cons_of_mem _ ho')
    refine ⟨best', ?_, ?_⟩
    · rw [List.foldlM_cons, tryOrder_ok hs]
      exact hfold
    · rw [List.append_assoc] at hbest'
      exact hbest'

/-- **The first order that fails ends the search**, whatever was found before. -/
theorem foldlM_tryOrder_error {before behind : List (List Int)} {o : List Int} {e : Fault}
    (hok : ∀ o' ∈ before, ∃ s, c.run o' = .ok s) (he : c.run o = .error e)
    (best : Option Finding) : (before ++ o :: behind).foldlM c.tryOrder best = .error e := by
  induction before generalizing best with
  | nil =>
    rw [List.nil_append, List.foldlM_cons, tryOrder_error he]
    rfl
  | cons o' before ih =>
    obtain ⟨s, hs⟩ := hok o' List.mem_cons_self
    rw [List.cons_append, List.foldlM_cons, tryOrder_ok hs]
    exact ih (fun o'' ho'' => hok o'' (List.mem_cons_of_mem _ ho'')) _

theorem search_eq_foldlM (h : 2 ≤ pool.length) :
    c.search pool = ((arrangements pool).foldlM c.tryOrder none).bind fun best =>
      match best with
      | some finding => .ok finding
      | none => .error (.tooFewPhases pool.length) := by
  have hcheck : checkPhases pool = .ok () := if_neg (by omega)
  rw [search, hcheck, visit_eq_foldlM]
  rfl

/-- Where the chain succeeds on every order, the search finds the first best. -/
theorem search_of_ok (h : 2 ≤ pool.length)
    (hok : ∀ o ∈ arrangements pool, ∃ s, c.run o = .ok s) :
    ∃ best, c.search pool = .ok best ∧ FirstBest c (arrangements pool) best := by
  cases hall : arrangements pool with
  | nil =>
    have hself : pool ∈ arrangements pool := mem_arrangements_iff.2 (List.Perm.refl _)
    rw [hall] at hself
    cases hself
  | cons o orders =>
    rw [hall] at hok
    obtain ⟨s, hs⟩ := hok o List.mem_cons_self
    have hfirst : FirstBest c [o] ⟨s, o⟩ := ⟨[], [], rfl, hs, by simp, by simp⟩
    obtain ⟨best, hfold, hbest⟩ :=
      foldlM_tryOrder_ok hfirst fun o' ho' => hok o' (List.mem_cons_of_mem _ ho')
    refine ⟨best, ?_, hbest⟩
    rw [search_eq_foldlM h, hall, List.foldlM_cons, tryOrder_ok hs]
    exact congrArg (Except.bind · _) hfold

/-- Where the chain fails on an order, the search gives the fault of the first such order. -/
theorem search_of_error (h : 2 ≤ pool.length) {before behind : List (List Int)} {o : List Int}
    {e : Fault} (hall : arrangements pool = before ++ o :: behind)
    (hok : ∀ o' ∈ before, ∃ s, c.run o' = .ok s) (he : c.run o = .error e) :
    c.search pool = .error e := by
  rw [search_eq_foldlM h, hall, foldlM_tryOrder_error hok he]
  rfl

theorem isOk_iff {x : Except Fault Int} : x.isOk = true ↔ ∃ s, x = .ok s := by
  cases x with
  | ok s => exact ⟨fun _ => ⟨s, rfl⟩, fun _ => rfl⟩
  | error e =>
    constructor
    · intro h; cases h
    · rintro ⟨s, h⟩; cases h

/-- Of the orders on which the chain fails there is a first one. -/
theorem exists_first_error {tuples : List (List Nat)} {places : List Nat} {e : Fault}
    (hmem : places ∈ tuples) (he : c.run (pickAt pool places) = .error e) :
    ∃ before first behind e', tuples = before ++ first :: behind ∧
      c.run (pickAt pool first) = .error e' ∧
      ∀ others ∈ before, ∃ s, c.run (pickAt pool others) = .ok s := by
  have hfails : ∃ places ∈ tuples, (!(c.run (pickAt pool places)).isOk) = true :=
    ⟨places, hmem, by rw [he]; rfl⟩
  obtain ⟨first, hfind⟩ := Option.isSome_iff_exists.1 (List.find?_isSome.2 hfails)
  obtain ⟨hfirst, before, behind, hsplit, hbefore⟩ := List.find?_eq_some_iff_append.1 hfind
  cases hrun : c.run (pickAt pool first) with
  | ok s =>
    rw [hrun] at hfirst
    cases hfirst
  | error e' =>
    refine ⟨before, first, behind, e', hsplit, hrun, ?_⟩
    intro others hothers
    have hok := hbefore others hothers
    rw [Bool.not_not] at hok
    exact isOk_iff.1 hok

/-- In an increasing list what is smaller than a member stands before it. -/
theorem mem_before_of_lt {before behind : List (List Nat)} {a b : List Nat}
    (h : (before ++ a :: behind).Pairwise (· < ·)) (hb : b ∈ before ++ a :: behind) (hlt : b < a) :
    b ∈ before := by
  rcases List.mem_append.1 hb with hb | hb
  · exact hb
  · exfalso
    rcases List.mem_cons.1 hb with rfl | hb
    · exact lt_irrefl _ hlt
    · have hab := (List.pairwise_cons.1 (List.pairwise_append.1 h).2.1).1 b hb
      exact lt_asymm hab hlt

theorem places_split {before behind : List (List Int)} {o : List Int}
    (h : arrangements pool = before ++ o :: behind) :
    ∃ first places last, arrangements (List.range pool.length) = first ++ places :: last ∧
      first.map (pickAt pool) = before ∧ pickAt pool places = o := by
  rw [arrangements_eq_map, List.map_eq_append_iff] at h
  obtain ⟨first, rest, hsplit, hfirst, hrest⟩ := h
  obtain ⟨places, last, rfl, hplaces, -⟩ := List.map_eq_cons_iff.1 hrest
  exact ⟨first, places, last, hsplit, hfirst, hplaces⟩

/-- The places are gone through in lexicographic order. -/
theorem pairwise_places (pool : List Int) :
    (arrangements (List.range pool.length)).Pairwise (· < ·) :=
  pairwise_arrangements List.pairwise_lt_range

/-- **The best order is the one whose places come first.** -/
theorem FirstBest.places {best : Finding} (h : FirstBest c (arrangements pool) best) :
    ∃ places, places.Perm (List.range pool.length) ∧ best.phases = pickAt pool places ∧
      ∀ others, others.Perm (List.range pool.length) →
        ∃ s, c.run (pickAt pool others) = .ok s ∧ s ≤ best.signal ∧
          (others < places → s < best.signal) := by
  obtain ⟨before, behind, hsplit, -, hbefore, -⟩ := id h
  obtain ⟨first, places, last, htuples, rfl, hplaces⟩ := places_split hsplit
  have hmem : places ∈ arrangements (List.range pool.length) := by rw [htuples]; simp
  refine ⟨places, mem_arrangements_iff.1 hmem, hplaces.symm, ?_⟩
  intro others hothers
  have hin := mem_arrangements_iff.2 hothers
  obtain ⟨s, hs, hle⟩ : ∃ s, c.run (pickAt pool others) = .ok s ∧ s ≤ best.signal := by
    apply h.run_le
    rw [arrangements_eq_map]
    exact List.mem_map_of_mem hin
  refine ⟨s, hs, hle, ?_⟩
  intro hlt
  have hsorted := pairwise_places pool
  rw [htuples] at hin hsorted
  obtain ⟨s', hs', hlt'⟩ := hbefore _ (List.mem_map_of_mem (mem_before_of_lt hsorted hin hlt))
  rw [hs] at hs'
  cases hs'
  exact hlt'

/-- **The fault of a search is that of the order whose places come first** among those that fail. -/
theorem search_error_places (h : 2 ≤ pool.length) {places : List Nat} {e : Fault}
    (hplaces : places.Perm (List.range pool.length)) (he : c.run (pickAt pool places) = .error e) :
    ∃ first e', first.Perm (List.range pool.length) ∧ c.run (pickAt pool first) = .error e' ∧
      (∀ others, others.Perm (List.range pool.length) → others < first →
        ∃ s, c.run (pickAt pool others) = .ok s) ∧
      c.search pool = .error e' := by
  obtain ⟨before, first, behind, e', hsplit, hfirst, hbefore⟩ :=
    exists_first_error (mem_arrangements_iff.2 hplaces) he
  have hmem : first ∈ arrangements (List.range pool.length) := by rw [hsplit]; simp
  have hall : arrangements pool =
      before.map (pickAt pool) ++ pickAt pool first :: behind.map (pickAt pool) := by
    rw [arrangements_eq_map, hsplit, List.map_append, List.map_cons]
  refine ⟨first, e', mem_arrangements_iff.1 hmem, hfirst, ?_, search_of_error h hall ?_ hfirst⟩
  · intro others hothers hlt
    have hin := mem_arrangements_iff.2 hothers
    have hsorted := pairwise_places pool
    rw [hsplit] at hin hsorted
    exact hbefore others (mem_before_of_lt hsorted hin hlt)
  · intro o ho
    obtain ⟨others, hothers, rfl⟩ := List.mem_map.1 ho
    exact hbefore others hothers

/-- **The search returns the first optimum over all orders, or the first fault.** The orders of a
pool are gone through by their places, `n!` of them, in lexicographic order and each once. If the
chain succeeds on all of them, the search gives a signal that none exceeds, with the order that
attains it first; in an increasing pool this is the least order that attains it. If the chain fails
on some order, the search gives the fault of the first one on which it does. -/
theorem search_firstBest (c : Chain) (pool : List Int) (h : 2 ≤ pool.length) :
    (∃ tuples : List (List Nat),
      visit c.tryOrder pool none = (tuples.map (pickAt pool)).foldlM c.tryOrder none ∧
      tuples.length = pool.length.factorial ∧ tuples.Pairwise (· < ·) ∧
      ∀ places, places ∈ tuples ↔ places.Perm (List.range pool.length)) ∧
    ((∀ places, places.Perm (List.range pool.length) → ∃ s, c.run (pickAt pool places) = .ok s) →
      ∃ best places, c.search pool = .ok best ∧ places.Perm (List.range pool.length) ∧
        best.phases = pickAt pool places ∧ c.run best.phases = .ok best.signal ∧
        (∀ others, others.Perm (List.range pool.length) →
          ∃ s, c.run (pickAt pool others) = .ok s ∧ s ≤ best.signal ∧
            (others < places → s < best.signal)) ∧
        (pool.Pairwise (· < ·) → ∀ order, order.Perm pool → c.run order = .ok best.signal →
          order = best.phases ∨ best.phases < order)) ∧
    ((∃ places e, places.Perm (List.range pool.length) ∧ c.run (pickAt pool places) = .error e) →
      ∃ places e, places.Perm (List.range pool.length) ∧ c.run (pickAt pool places) = .error e ∧
        (∀ others, others.Perm (List.range pool.length) → others < places →
          ∃ s, c.run (pickAt pool others) = .ok s) ∧
        c.search pool = .error e) := by
  refine ⟨⟨arrangements (List.range pool.length), ?_, ?_, pairwise_places pool,
    fun _ => mem_arrangements_iff⟩, ?_, ?_⟩
  · rw [visit_eq_foldlM, arrangements_eq_map]
  · rw [length_arrangements, List.length_range]
  · intro hok
    have hall : ∀ o ∈ arrangements pool, ∃ s, c.run o = .ok s := by
      intro o ho
      rw [arrangements_eq_map] at ho
      obtain ⟨places, hplaces, rfl⟩ := List.mem_map.1 ho
      exact hok places (mem_arrangements_iff.1 hplaces)
    obtain ⟨best, hsearch, hfirst⟩ := search_of_ok h hall
    obtain ⟨places, hplaces, hphases, hothers⟩ := hfirst.places
    refine ⟨best, places, hsearch, hplaces, hphases, hfirst.run_phases, hothers, ?_⟩
    intro hpool order horder hrun
    exact hfirst.least (pairwise_arrangements hpool) (mem_arrangements_iff.2 horder) hrun
  · rintro ⟨places, e, hplaces, he⟩
    exact search_error_places h hplaces he

/-- A pool with equal phases, of which two choices of places give the best order; and a pool whose
first order succeeds and whose second one fails. -/
theorem search_firstBest_tie :
    let c : Chain := ⟨[3, 15, 3, 16, 1002, 16, 10, 16, 1, 16, 15, 15, 4, 15, 99, 0, 0], 9⟩
    let d : Chain := ⟨[3, 11, 3, 12, 1, 11, 12, 9, 4, 0, 99, 0, 0], 9⟩
    (∃ best, c.search [1, 0, 1] = .ok best ∧ c.run best.phases = .ok best.signal ∧
      110 ≤ best.signal) ∧
    d.run [4, 10] = .ok 10 ∧ ∃ e, d.run [10, 4] = .error e ∧ d.search [4, 10] = .error e := by
  intro c d
  have hok : ∀ places : List Nat, places.Perm (List.range 3) →
      ∃ s, c.run (pickAt [1, 0, 1] places) = .ok s := by
    intro places hplaces
    have hall : ∀ places ∈ arrangements (List.range 3), (c.run (pickAt [1, 0, 1] places)).isOk := by
      subst c
      decide +kernel
    exact isOk_iff.1 (hall places (mem_arrangements_iff.2 hplaces))
  have hfirst : c.run [1, 1, 0] = .ok 110 := by subst c; decide +kernel
  have hd : d.run [4, 10] = .ok 10 := by subst d; decide +kernel
  have hd' : d.run [10, 4] = .error (.addressOutside 103 13) := by subst d; decide +kernel
  obtain ⟨best, _, hsearch, -, -, hbest, hothers, -⟩ :=
    (search_firstBest c [1, 0, 1] (by decide)).2.1 hok
  obtain ⟨s, hs, hle, -⟩ := hothers [0, 2, 1] (by decide)
  obtain ⟨places, e, hplaces, he, -, hfail⟩ :=
    (search_firstBest d [4, 10] (by decide)).2.2 ⟨[1, 0], _, by decide, hd'⟩
  refine ⟨⟨best, hsearch, hbest, ?_⟩, hd, e, ?_, hfail⟩
  · cases hs.symm.trans hfirst
    exact hle
  · -- of the two orders it is the second that fails
    have hmem : places ∈ [[0, 1], [1, 0]] := mem_arrangements_iff.2 hplaces
    rcases List.mem_pair.1 hmem with rfl | rfl
    · cases hd.symm.trans he
    · exact he

/-- **What the search gives is the best of all orders**: an order of the pool attains it, and no other
exceeds it. -/
theorem search_best (h : 2 ≤ pool.length) {best : Finding} (hbest : c.search pool = .ok best) :
    best.phases.Perm pool ∧ c.run best.phases = .ok best.signal ∧
      ∀ order, order.Perm pool → ∃ s, c.run order = .ok s ∧ s ≤ best.signal := by
  have hok : ∀ o ∈ arrangements pool, ∃ s, c.run o = .ok s := by
    intro o ho
    cases hrun : c.run o with
    | ok s => exact ⟨s, rfl⟩
    | error e =>
      -- an order that fails would have ended the search
      rw [arrangements_eq_map] at ho
      obtain ⟨places, hplaces, rfl⟩ := List.mem_map.1 ho
      obtain ⟨-, e', -, -, -, hsearch⟩ :=
        search_error_places h (mem_arrangements_iff.1 hplaces) hrun
      rw [hbest] at hsearch
      cases hsearch
  obtain ⟨best', hsearch, hfirst⟩ := search_of_ok h hok
  rw [hbest] at hsearch
  cases hsearch
  refine ⟨?_, hfirst.run_phases, fun order horder => hfirst.run_le (mem_arrangements_iff.2 horder)⟩
  obtain ⟨before, behind, hall, -⟩ := hfirst
  apply mem_arrangements_iff.1
  rw [hall]
  simp

/-- **A search fails as one of its orders does.** -/
theorem search_eq_error (h : 2 ≤ pool.length) {e : Fault} (he : c.search pool = .error e) :
    ∃ order, order.Perm pool ∧ c.run order = .error e := by
  by_cases hok : ∀ o ∈ arrangements pool, ∃ s, c.run o = .ok s
  · obtain ⟨best, hbest, -⟩ := search_of_ok h hok
    rw [he] at hbest
    cases hbest
  · simp only [not_forall, not_exists] at hok
    obtain ⟨o, ho, hnot⟩ := hok
    cases hrun : c.run o with
    | ok s => exact absurd hrun (hnot s)
    | error e' =>
      rw [arrangements_eq_map] at ho
      obtain ⟨places, hplaces, rfl⟩ := List.mem_map.1 ho
      obtain ⟨first, e₁, hfirst, hfails, -, hsearch⟩ :=
        search_error_places h (mem_arrangements_iff.1 hplaces) hrun
      rw [he] at hsearch
      cases hsearch
      refine ⟨pickAt pool first, ?_, hfails⟩
      rw [← mem_arrangements_iff, arrangements_eq_map]
      exact List.mem_map_of_mem (mem_arrangements_iff.2 hfirst)

/-- A pool has a best order if the same phases in another order have one. -/
theorem exists_search_of_perm {pool' : List Int} (hperm : pool.Perm pool') (h : 2 ≤ pool.length)
    {best : Finding} (hbest : c.search pool = .ok best) : ∃ best', c.search pool' = .ok best' := by
  obtain ⟨-, -, hall⟩ := search_best h hbest
  have hok : ∀ o ∈ arrangements pool', ∃ s, c.run o = .ok s := by
    intro o ho
    obtain ⟨s, hs, -⟩ := hall o ((mem_arrangements_iff.1 ho).trans hperm.symm)
    exact ⟨s, hs⟩
  obtain ⟨best', hsearch, -⟩ := search_of_ok (hperm.length_eq ▸ h) hok
  exact ⟨best', hsearch⟩

/-- **The best signal does not depend on the order of the pool.** For pools that are permutations of
each other the search gives a finding for both or for neither, and then with the same signal; the order
that it gives is an order of the pool, and the chain gives the signal on it. -/
theorem search_perm (c : Chain) {pool pool' : List Int} (hperm : pool.Perm pool')
    (h : 2 ≤ pool.length) :
    ((∃ best, c.search pool = .ok best) ↔ ∃ best', c.search pool' = .ok best') ∧
    ∀ best best', c.search pool = .ok best → c.search pool' = .ok best' →
      best.signal = best'.signal ∧
      best.phases.Perm pool ∧ c.run best.phases = .ok best.signal ∧
      best'.phases.Perm pool' ∧ c.run best'.phases = .ok best'.signal := by
  have h' : 2 ≤ pool'.length := hperm.length_eq ▸ h
  refine ⟨⟨?_, ?_⟩, ?_⟩
  · rintro ⟨best, hbest⟩
    exact exists_search_of_perm hperm h hbest
  · rintro ⟨best', hbest'⟩
    exact exists_search_of_perm hperm.symm h' hbest'
  · intro best best' hbest hbest'
    obtain ⟨horder, hrun, hall⟩ := search_best h hbest
    obtain ⟨horder', hrun', hall'⟩ := search_best h' hbest'
    -- each of the two orders is one of the other pool too, and does not exceed its best
    obtain ⟨s, hs, hle⟩ := hall best'.phases (horder'.trans hperm.symm)
    obtain ⟨s', hs', hle'⟩ := hall' best.phases (horder.trans hperm)
    cases hs.symm.trans hrun'
    cases hs'.symm.trans hrun
    exact ⟨Int.le_antisymm hle' hle, horder, hrun, horder', hrun'⟩

/-- A pool with equal phases, in two orders. -/
theorem search_perm_digits :
    let c : Chain := ⟨[3, 15, 3, 16, 1002, 16, 10, 16, 1, 16, 15, 15, 4, 15, 99, 0, 0], 9⟩
    [1, 0, 1].Perm [(0 : Int), 1, 1] ∧ ∃ best best', c.search [1, 0, 1] = .ok best ∧
      c.search [0, 1, 1] = .ok best' ∧ best.signal = best'.signal ∧
      c.run best'.phases = .ok best.signal := by
  intro c
  have hperm : [1, 0, 1].Perm [(0 : Int), 1, 1] := by decide
  have hbest : c.search [1, 0, 1] = .ok ⟨110, [1, 1, 0]⟩ := by subst c; decide +kernel
  obtain ⟨hiff, hsame⟩ := search_perm c hperm (by decide)
  obtain ⟨best', hbest'⟩ := hiff.1 ⟨_, hbest⟩
  obtain ⟨hsignal, -, -, -, hrun⟩ := hsame _ best' hbest hbest'
  exact ⟨hperm, _, best', hbest, hbest', hsignal, hsignal ▸ hrun⟩

end Intcode.Chain
