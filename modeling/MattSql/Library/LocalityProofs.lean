import MattSql.Library.RunProofs

/-! # Calls that touch one key

    A component whose states are seen through their contents, a value for each
    key.  A call names at most one key.  When it leaves the contents of every
    other key alone, and its reply and its effect depend on the contents of its
    own key alone, states with equal contents cannot be told apart by any run
    (`Local.trace_eq`), calls with different keys commute (`Local.commute`), and
    the calls of some keys do not notice the others (`Local.purge`).

    The invariant holds of every state of a run; the guard is what the
    environment promises of the states that a call's reply depends on. -/

namespace Run

variable {σ ι ο κ ν : Type}

structure Local (step : σ → ι → ο × σ) (key : ι → Option κ) (contents : σ → κ → ν)
    (I G : σ → Prop) : Prop where
  kept : ∀ s i, I s → I (step s i).2
  frame : ∀ s i k, I s → key i ≠ some k → contents (step s i).2 k = contents s k
  alike : ∀ s t i, I s → I t → G s → G t → (∀ k, key i = some k → contents s k = contents t k) →
    (step s i).1 = (step t i).1
      ∧ ∀ k, key i = some k → contents (step s i).2 k = contents (step t i).2 k

section

variable {step : σ → ι → ο × σ} {key : ι → Option κ} {contents : σ → κ → ν} {I G : σ → Prop}

/-- One call on states with equal contents. -/
theorem Local.step_eq (h : Local step key contents I G) {s t : σ} (i : ι) (hs : I s) (ht : I t)
    (gs : G s) (gt : G t) (heq : contents s = contents t) :
    (step s i).1 = (step t i).1 ∧ contents (step s i).2 = contents (step t i).2 := by
  obtain ⟨hreply, heffect⟩ := h.alike s t i hs ht gs gt fun k _ => congrFun heq k
  refine ⟨hreply, funext fun k => ?_⟩
  by_cases hk : key i = some k
  · exact heffect k hk
  · rw [h.frame s i k hs hk, h.frame t i k ht hk, heq]

/-- **CONTENTS RULE**: runs from states with equal contents get equal replies
    and end in states with equal contents. -/
theorem Local.trace_eq (h : Local step key contents I G) :
    ∀ (is : List ι) (s t : σ), I s → I t → (∀ n, G (final step s (is.take n))) →
      (∀ n, G (final step t (is.take n))) → contents s = contents t →
      trace step s is = trace step t is
        ∧ contents (final step s is) = contents (final step t is) := by
  intro is
  induction is with
  | nil =>
      intro s t _ _ _ _ heq
      exact ⟨rfl, heq⟩
  | cons i is ih =>
      intro s t hs ht gs gt heq
      obtain ⟨hreply, hnext⟩ := h.step_eq i hs ht (gs 0) (gt 0) heq
      obtain ⟨htrace, hfinal⟩ := ih (step s i).2 (step t i).2 (h.kept s i hs) (h.kept t i ht)
        (fun n => gs (n + 1)) (fun n => gt (n + 1)) hnext
      refine ⟨?_, hfinal⟩
      rw [trace, trace, htrace, hreply]

/-- A call gets the same reply before and after a call with another key, and
    does the same to its own key. -/
theorem Local.after_other (h : Local step key contents I G) {s : σ} {i j : ι} (hs : I s)
    (gs : G s) (gj : G (step s j).2) (hkeys : ∀ k, key i = some k → key j ≠ some k) :
    (step s i).1 = (step (step s j).2 i).1
      ∧ ∀ k, key i = some k → contents (step s i).2 k = contents (step (step s j).2 i).2 k :=
  h.alike s (step s j).2 i hs (h.kept s j hs) gs gj
    fun k hk => (h.frame s j k hs (hkeys k hk)).symm

/-- **COMMUTATION RULE**: two calls with different keys, or none, get the same
    replies in either order, and leave the same contents. -/
theorem Local.commute (h : Local step key contents I G) {s : σ} {i j : ι} (hs : I s) (gs : G s)
    (gi : G (step s i).2) (gj : G (step s j).2)
    (hkeys : ∀ k, key i = some k → key j ≠ some k) :
    (step s i).1 = (step (step s j).2 i).1
      ∧ (step (step s i).2 j).1 = (step s j).1
      ∧ contents (step (step s i).2 j).2 = contents (step (step s j).2 i).2 := by
  have hi := h.kept s i hs
  have hj := h.kept s j hs
  obtain ⟨hreply, heffect⟩ := h.after_other hs gs gj hkeys
  obtain ⟨hreply', heffect'⟩ := h.after_other hs gs gi
    fun k hk hk' => hkeys k hk' hk
  refine ⟨hreply, hreply'.symm, funext fun k => ?_⟩
  by_cases hik : key i = some k
  · rw [h.frame _ j k hi (hkeys k hik), heffect k hik]
  · rw [h.frame _ i k hj hik]
    by_cases hjk : key j = some k
    · exact (heffect' k hjk).symm
    · rw [h.frame _ j k hi hjk, h.frame s i k hs hik, h.frame s j k hs hjk]

/-- **PURGE RULE**: the calls of some keys get the replies that they get when
    the other calls are left out, and leave the same contents of their keys. -/
theorem Local.purge (h : Local step key contents I G) {p : ι → Bool} {K : κ → Prop}
    (hin : ∀ i k, p i = true → key i = some k → K k)
    (hout : ∀ i k, p i = false → key i = some k → ¬K k) :
    ∀ (is : List ι) (s t : σ), I s → I t → (∀ n, G (final step s (is.take n))) →
      (∀ n, G (final step t ((is.filter p).take n))) →
      (∀ k, K k → contents s k = contents t k) →
      (trace step s is).filter (fun call => p call.1) = trace step t (is.filter p)
        ∧ ∀ k, K k → contents (final step s is) k = contents (final step t (is.filter p)) k := by
  intro is
  induction is with
  | nil => exact fun _ _ _ _ _ _ heq => ⟨rfl, heq⟩
  | cons i is ih =>
      intro s t hs ht gs gt heq
      have hs' := h.kept s i hs
      cases hp : p i with
      | true =>
          -- both runs make the call
          rw [List.filter_cons_of_pos hp] at gt ⊢
          obtain ⟨hreply, heffect⟩ :=
            h.alike s t i hs ht (gs 0) (gt 0) fun k hk => heq k (hin i k hp hk)
          have hnext : ∀ k, K k → contents (step s i).2 k = contents (step t i).2 k := by
            intro k hK
            by_cases hk : key i = some k
            · exact heffect k hk
            · rw [h.frame s i k hs hk, h.frame t i k ht hk, heq k hK]
          obtain ⟨htrace, hfinal⟩ := ih (step s i).2 (step t i).2 hs' (h.kept t i ht)
            (fun n => gs (n + 1)) (fun n => gt (n + 1)) hnext
          refine ⟨?_, hfinal⟩
          rw [trace, List.filter_cons, if_pos hp, htrace, trace, hreply]
      | false =>
          -- only the first run makes it, and no key notices
          have hskip : ¬p i = true := Bool.eq_false_iff.mp hp
          rw [List.filter_cons_of_neg hskip] at gt ⊢
          have hnext : ∀ k, K k → contents (step s i).2 k = contents t k := by
            intro k hK
            rw [h.frame s i k hs fun hk => hout i k hp hk hK, heq k hK]
          obtain ⟨htrace, hfinal⟩ := ih (step s i).2 t hs' ht (fun n => gs (n + 1)) gt hnext
          refine ⟨?_, hfinal⟩
          rw [trace, List.filter_cons, if_neg hskip, htrace]

end

end Run
