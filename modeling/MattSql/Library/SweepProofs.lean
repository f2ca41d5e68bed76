import Mathlib.Order.UpperLower.Basic
import MattSql.Library.RunProofs

/-! # Sweeping over keys that come and go

    A component whose calls sweep over a linearly ordered set of keys while
    other calls add keys and take keys away.  In each state some keys are live
    and a lower set of them is passed.  A call finds a live key that is not
    passed, ends because every live key is passed, or does not sweep.

    Over whole runs the keys that are found increase (`Sweeps.increasing`), and
    a key that stays live until the sweep ends is found (`Sweeps.covers`). -/

namespace Run

variable {σ ι ο κ : Type} [LinearOrder κ]

/-- What a call did to the sweep. -/
inductive SweepEvent (κ : Type)
  | other
  | found (key : κ)
  | ended

structure Sweeps (step : σ → ι → ο × σ) (event : ι × ο → SweepEvent κ) (live passed : σ → Set κ)
    (I : σ → Prop) : Prop where
  kept : ∀ s i, I s → I (step s i).2
  lower : ∀ s, I s → IsLowerSet (passed s)
  other : ∀ s i, I s → event (i, (step s i).1) = .other → passed (step s i).2 = passed s
  /-- The key is the only live one that is passed over. -/
  found : ∀ s i key, I s → event (i, (step s i).1) = .found key →
    key ∈ live s ∧ key ∉ passed s ∧ key ∈ passed (step s i).2
      ∧ passed s ⊆ passed (step s i).2
      ∧ ∀ k ∈ live s, k ∈ passed (step s i).2 → k ∈ passed s ∨ k = key
  ended : ∀ s i, I s → event (i, (step s i).1) = .ended →
    live s ⊆ passed s ∧ passed s ⊆ passed (step s i).2

/-- The key a call found. -/
def SweepEvent.key : SweepEvent κ → Option κ
  | .found key => some key
  | _ => none

/-- The keys found by the calls of a trace, in order. -/
def foundKeys (event : ι × ο → SweepEvent κ) (calls : List (ι × ο)) : List κ :=
  calls.filterMap fun call => (event call).key

section

variable {step : σ → ι → ο × σ} {event : ι × ο → SweepEvent κ} {live passed : σ → Set κ}
  {I : σ → Prop}

/-- What is passed stays passed. -/
theorem Sweeps.passed_mono (h : Sweeps step event live passed I) {s : σ} (i : ι) (hs : I s) :
    passed s ⊆ passed (step s i).2 := by
  cases hevent : event (i, (step s i).1) with
  | other => rw [h.other s i hs hevent]
  | found key => exact (h.found s i key hs hevent).2.2.2.1
  | ended => exact (h.ended s i hs hevent).2

/-- No key is found that was passed before. -/
theorem Sweeps.notMem_passed (h : Sweeps step event live passed I) :
    ∀ (is : List ι) (s : σ), I s → ∀ key ∈ foundKeys event (trace step s is), key ∉ passed s := by
  intro is
  induction is with
  | nil =>
      intro s _ key hmem
      cases hmem
  | cons i is ih =>
      intro s hs key hmem
      have hrest : key ∈ foundKeys event (trace step (step s i).2 is) → key ∉ passed s :=
        fun hmore hpassed => ih _ (h.kept s i hs) key hmore (h.passed_mono i hs hpassed)
      rw [foundKeys] at hmem
      rw [trace, List.filterMap_cons] at hmem
      cases hevent : event (i, (step s i).1) with
      | other =>
          rw [hevent] at hmem
          exact hrest hmem
      | ended =>
          rw [hevent] at hmem
          exact hrest hmem
      | found first =>
          rw [hevent] at hmem
          rcases List.mem_cons.mp hmem with rfl | hmore
          · exact (h.found s i key hs hevent).2.1
          · exact hrest hmore

/-- **INCREASING**: the keys found along a run increase strictly. -/
theorem Sweeps.increasing (h : Sweeps step event live passed I) :
    ∀ (is : List ι) (s : σ), I s → (foundKeys event (trace step s is)).Pairwise (· < ·) := by
  intro is
  induction is with
  | nil =>
      intro s _
      exact List.Pairwise.nil
  | cons i is ih =>
      intro s hs
      have hkept := h.kept s i hs
      have hrest := ih _ hkept
      unfold foundKeys at hrest ⊢
      rw [trace, List.filterMap_cons]
      cases hevent : event (i, (step s i).1) with
      | other => exact hrest
      | ended => exact hrest
      | found key =>
          refine List.Pairwise.cons (fun later hmem => ?_) hrest
          -- a later key is not passed, and all keys up to this one are
          have hpassed := (h.found s i key hs hevent).2.2.1
          by_contra hle
          exact h.notMem_passed is _ hkept later hmem
            (h.lower _ hkept (not_lt.mp hle) hpassed)

/-- **COVERAGE**: a key that is live in every state of a run up to one in which
    all live keys are passed was passed at the start, or is found. -/
theorem Sweeps.covers (h : Sweeps step event live passed I) {key : κ} :
    ∀ (is : List ι) (s : σ), I s → (∀ n ≤ is.length, key ∈ live (final step s (is.take n))) →
      live (final step s is) ⊆ passed (final step s is) →
      key ∈ passed s ∨ key ∈ foundKeys event (trace step s is) := by
  intro is
  induction is with
  | nil =>
      intro s _ hlive hend
      exact Or.inl (hend (hlive 0 (Nat.le_refl 0)))
  | cons i is ih =>
      intro s hs hlive hend
      have hnow : key ∈ live s := hlive 0 (Nat.zero_le _)
      have hlater := ih _ (h.kept s i hs)
        (fun n hn => hlive (n + 1) (by rw [List.length_cons]; omega)) hend
      unfold foundKeys at hlater ⊢
      rw [trace, List.filterMap_cons]
      cases hevent : event (i, (step s i).1) with
      | other =>
          rw [h.other s i hs hevent] at hlater
          exact hlater
      | ended => exact Or.inl ((h.ended s i hs hevent).1 hnow)
      | found first =>
          rcases hlater with hpassed | hmem
          · rcases (h.found s i first hs hevent).2.2.2.2 key hnow hpassed with hbefore | heq
            · exact Or.inl hbefore
            · exact Or.inr (heq ▸ List.mem_cons_self)
          · exact Or.inr (List.mem_cons_of_mem first hmem)

end

end Run
