import Mathlib.Algebra.BigOperators.Group.List.Basic
import Mathlib.Algebra.Order.Monoid.Basic
import Mathlib.Algebra.Order.Monoid.Unbundled.Pow
import Mathlib.Tactic.Abel

/-! # First fit

    Bins of one capacity, of which only the loads are looked at.  An item that
    no bin takes opens a new bin, and loads never go down.

    Bins filled like that are CROWDED: two of them together always hold more
    than one could.  `Crowded.nsmul_length_lt` draws from it that more than half
    of all space is used. -/

namespace FirstFit

section Crowded

variable {M : Type} [AddCommMonoid M] [PartialOrder M] [IsOrderedCancelAddMonoid M]
variable {capacity : M} {loads : List M}

/-- Any two bins together hold more than one could. -/
def Crowded (capacity : M) (loads : List M) : Prop :=
  loads.Pairwise fun load load' => capacity < load + load'

omit [IsOrderedCancelAddMonoid M] in
theorem crowded_nil : Crowded capacity [] := List.Pairwise.nil

omit [IsOrderedCancelAddMonoid M] in
/-- A bin opened for an item that no bin took. -/
theorem Crowded.concat (h : Crowded capacity loads) {load : M}
    (hfull : ∀ other ∈ loads, capacity < other + load) : Crowded capacity (loads ++ [load]) := by
  refine List.pairwise_append.mpr ⟨h, List.pairwise_singleton _ _, ?_⟩
  intro other hother new hnew
  rw [List.mem_singleton.mp hnew]
  exact hfull other hother

/-- A bin that took an item. -/
theorem Crowded.set (h : Crowded capacity loads) {i : Nat} {load more : M}
    (hget : loads[i]? = some load) (hle : load ≤ more) : Crowded capacity (loads.set i more) := by
  obtain ⟨hi, rfl⟩ := List.getElem?_eq_some_iff.mp hget
  rw [Crowded, List.pairwise_iff_getElem] at h ⊢
  intro j k hj hk hjk
  rw [List.length_set] at hj hk
  have hold := h j k hj hk hjk
  rw [List.getElem_set, List.getElem_set]
  by_cases hij : i = j
  · subst hij
    rw [if_pos rfl, if_neg (Nat.ne_of_lt hjk)]
    exact lt_of_lt_of_le hold (add_le_add_left hle _)
  rw [if_neg hij]
  by_cases hik : i = k
  · subst hik
    rw [if_pos rfl]
    exact lt_of_lt_of_le hold (add_le_add_right hle _)
  · rw [if_neg hik]
    exact hold

/-- **MORE THAN HALF** of the space of crowded bins is used, when there is more
    than one.  The induction takes two bins at a time. -/
theorem Crowded.nsmul_length_lt :
    ∀ {loads : List M}, Crowded capacity loads → 2 ≤ loads.length →
      loads.length • capacity < 2 • loads.sum
  | [], _, hlen => absurd hlen (Nat.not_succ_le_zero 1)
  | [_], _, hlen => absurd hlen (Nat.not_succ_le_self 1)
  | [a, b], h, _ => by
      have hab : capacity < a + b := List.rel_of_pairwise_cons h List.mem_cons_self
      rw [List.sum_cons, List.sum_cons, List.sum_nil, add_zero]
      exact nsmul_lt_nsmul_right two_ne_zero hab
  | [a, b, d], h, _ => by
      have hab : capacity < a + b := List.rel_of_pairwise_cons h List.mem_cons_self
      have had : capacity < a + d :=
        List.rel_of_pairwise_cons h (List.mem_cons_of_mem _ List.mem_cons_self)
      have hbd : capacity < b + d := List.rel_of_pairwise_cons h.of_cons List.mem_cons_self
      calc 3 • capacity = capacity + capacity + capacity := by abel
        _ < (a + b) + (a + d) + (b + d) := add_lt_add (add_lt_add hab had) hbd
        _ = 2 • [a, b, d].sum := by
          rw [List.sum_cons, List.sum_cons, List.sum_cons, List.sum_nil]
          abel
  | a :: b :: d :: e :: rest, h, _ => by
      have hab : capacity < a + b := List.rel_of_pairwise_cons h List.mem_cons_self
      have hrest : (d :: e :: rest).length • capacity < 2 • (d :: e :: rest).sum :=
        Crowded.nsmul_length_lt h.of_cons.of_cons (Nat.le_add_left 2 rest.length)
      calc (rest.length + 4) • capacity
          = 2 • capacity + (d :: e :: rest).length • capacity := by
            rw [← add_nsmul, List.length_cons, List.length_cons, Nat.add_comm 2]
        _ < 2 • (a + b) + 2 • (d :: e :: rest).sum :=
            add_lt_add (nsmul_lt_nsmul_right two_ne_zero hab) hrest
        _ = 2 • (a :: b :: d :: e :: rest).sum := by
          rw [← nsmul_add, @List.sum_cons M _ _ a, @List.sum_cons M _ _ b, add_assoc]

end Crowded

/-- What replacing one term does to a sum. -/
theorem sum_set_add {M : Type} [AddCommMonoid M] {terms : List M} {i : Nat} {old new : M}
    (hget : terms[i]? = some old) : (terms.set i new).sum + old = terms.sum + new := by
  induction terms generalizing i with
  | nil => cases hget
  | cons term terms ih =>
      cases i with
      | zero =>
          rw [List.getElem?_cons_zero, Option.some.injEq] at hget
          rw [hget, List.set_cons_zero, List.sum_cons, List.sum_cons]
          abel
      | succ i =>
          rw [List.getElem?_cons_succ] at hget
          rw [List.set_cons_succ, List.sum_cons, List.sum_cons, add_assoc, ih hget, add_assoc]

end FirstFit
