import Mathlib.Logic.Basic

/-! # Runs of a component

    A component answers each call with a reply and a new state.  `final` is
    the state after a list of calls and `trace` the calls with their replies.

    `final_invariant` carries a state invariant through whole runs.
    `final_refines` carries a relation between the state and a reference value
    that is replayed from the trace alone: one step lemma for the component
    gives the relation after every run; `final_log` is the case of a log that
    calls append to.  `forall_final_iff` turns the exact
    condition of one call into the exact condition of a run.  `trace_simulates`
    and `trace_eq_of_view` compare the replies of two components over whole
    runs.  `final_eq_replay` reduces a run to the part of it that a log keeps. -/

namespace Run

variable {σ ι ο ρ : Type}

/-- The state after the listed calls. -/
def final (step : σ → ι → ο × σ) : σ → List ι → σ
  | s, [] => s
  | s, i :: is => final step (step s i).2 is

/-- The calls with the replies they got. -/
def trace (step : σ → ι → ο × σ) : σ → List ι → List (ι × ο)
  | _, [] => []
  | s, i :: is => (i, (step s i).1) :: trace step (step s i).2 is

theorem final_append (step : σ → ι → ο × σ) (s : σ) (is js : List ι) :
    final step s (is ++ js) = final step (final step s is) js := by
  induction is generalizing s with
  | nil => rfl
  | cons i is ih => exact ih (step s i).2

theorem trace_append (step : σ → ι → ο × σ) (s : σ) (is js : List ι) :
    trace step s (is ++ js) = trace step s is ++ trace step (final step s is) js := by
  induction is generalizing s with
  | nil => rfl
  | cons i is ih =>
      rw [List.cons_append, trace, trace, ih, List.cons_append]
      rfl

/-- A trace has the calls it is the trace of. -/
theorem trace_calls (step : σ → ι → ο × σ) :
    ∀ (is : List ι) (s : σ), (trace step s is).map (·.1) = is := by
  intro is
  induction is with
  | nil => exact fun _ => rfl
  | cons i is ih =>
      intro s
      rw [trace, List.map_cons, ih]

/-- The prefixes of a list are those up to its length. -/
theorem forall_take {P : List ι → Prop} {is : List ι} (h : ∀ n ≤ is.length, P (is.take n))
    (n : Nat) : P (is.take n) := by
  rcases Nat.le_total n is.length with hn | hn
  · exact h n hn
  · have hall := h is.length (Nat.le_refl _)
    rw [List.take_length] at hall
    rw [List.take_of_length_le hn]
    exact hall

/-- What every call preserves holds after every run. -/
theorem final_invariant {step : σ → ι → ο × σ} {I : σ → Prop}
    (hstep : ∀ s i, I s → I (step s i).2) :
    ∀ (is : List ι) (s : σ), I s → I (final step s is) := by
  intro is
  induction is with
  | nil => intro s h; exact h
  | cons i is ih => intro s h; exact ih (step s i).2 (hstep s i h)

/-- A log that every call appends to holds, after every run, what the calls of
    the run appended. -/
theorem final_log {κ : Type} {step : σ → ι → ο × σ} {log : σ → List κ} {entry : ι × ο → Option κ}
    (hstep : ∀ s i, log (step s i).2 = log s ++ (entry (i, (step s i).1)).toList) :
    ∀ (is : List ι) (s : σ),
      log (final step s is) = log s ++ (trace step s is).filterMap entry := by
  intro is
  induction is with
  | nil =>
      intro s
      exact (List.append_nil (log s)).symm
  | cons i is ih =>
      intro s
      rw [final, ih, hstep, trace, List.filterMap_cons, List.append_assoc]
      cases entry (i, (step s i).1) <;> rfl

/-- **REPLAY RULE**: a relation to a reference value that every call keeps,
    when the reference value follows the call and its reply, holds after every
    run between the state and the replayed trace. -/
theorem final_refines {step : σ → ι → ο × σ} {track : ρ → ι × ο → ρ}
    {R : σ → ρ → Prop}
    (hstep : ∀ s r i, R s r → R (step s i).2 (track r (i, (step s i).1))) :
    ∀ (is : List ι) (s : σ) (r : ρ), R s r →
      R (final step s is) ((trace step s is).foldl track r) := by
  intro is
  induction is with
  | nil => intro s r h; exact h
  | cons i is ih =>
      intro s r h
      exact ih (step s i).2 (track r (i, (step s i).1)) (hstep s r i h)

/-- **EXACT CONDITION RULE**: when a call keeps a property exactly under a
    condition on the state before it, the property holds at every point of a
    run exactly when every call of the run meets the condition. -/
theorem forall_final_iff {step : σ → ι → ο × σ} {track : ρ → ι × ο → ρ} {I P : σ → ρ → Prop}
    {Q : σ → ρ → ι → Prop}
    (hkept : ∀ s r i, I s r → I (step s i).2 (track r (i, (step s i).1)))
    (hstep : ∀ s r i, I s r → P s r →
      (P (step s i).2 (track r (i, (step s i).1)) ↔ Q s r i)) :
    ∀ (is : List ι) (s : σ) (r : ρ), I s r → P s r →
      ((∀ n, P (final step s (is.take n)) ((trace step s (is.take n)).foldl track r))
        ↔ ∀ n i, is[n]? = some i →
          Q (final step s (is.take n)) ((trace step s (is.take n)).foldl track r) i) := by
  intro is
  -- induction on the calls; the first call's condition is the property after it
  induction is with
  | nil =>
      intro s r _ hP
      refine ⟨fun _ n i hi => ?_, fun _ n => ?_⟩
      · rw [List.getElem?_nil] at hi
        cases hi
      · rw [List.take_nil]
        exact hP
  | cons i is ih =>
      intro s r hI hP
      have hnext := hstep s r i hI hP
      constructor
      · intro hall n j hj
        have hP' := hall 1
        rw [List.take_succ_cons, List.take_zero] at hP'
        cases n with
        | zero =>
            cases hj
            exact hnext.mp hP'
        | succ n => exact (ih _ _ (hkept s r i hI) hP').mp (fun n => hall (n + 1)) n j hj
      · intro hall n
        cases n with
        | zero => exact hP
        | succ n =>
            have hP' := hnext.mpr (hall 0 i rfl)
            exact (ih _ _ (hkept s r i hI) hP').mpr (fun n j hj => hall (n + 1) j hj) n

/-- **SIMULATION RULE**: when every call gets the reference component's reply,
    up to the given view of replies, and keeps the relation between the two
    states, so do whole runs.  The guard is what the environment promises of
    every state the run passes through. -/
theorem trace_simulates {ο' : Type} {step : σ → ι → ο × σ} {reference : ρ → ι → ο' × ρ}
    {view : ο → ο'} {R : σ → ρ → Prop} {G : σ → Prop}
    (hstep : ∀ s r i, G s → R s r →
      view (step s i).1 = (reference r i).1 ∧ R (step s i).2 (reference r i).2) :
    ∀ (is : List ι) (s : σ) (r : ρ), (∀ n, G (final step s (is.take n))) → R s r →
      (trace step s is).map (fun entry => (entry.1, view entry.2)) = trace reference r is
      ∧ R (final step s is) (final reference r is) := by
  intro is
  induction is with
  | nil => intro s r _ h; exact ⟨rfl, h⟩
  | cons i is ih =>
      intro s r hguard h
      obtain ⟨hreply, hnext⟩ := hstep s r i (hguard 0) h
      obtain ⟨htrace, hfinal⟩ := ih (step s i).2 (reference r i).2
        (fun n => hguard (n + 1)) hnext
      refine ⟨?_, hfinal⟩
      rw [trace, trace, List.map_cons, htrace, hreply]

/-- **VIEW RULE**: a component whose states are seen as states of a reference
    component, and which answers like it whenever the environment keeps to the
    rules, cannot be told from it over whole runs.  The rules may depend on
    what was tracked of the run so far. -/
theorem trace_eq_of_view {τ : Type} {step : σ → ι → ο × σ} {reference : τ → ι → ο × τ}
    {view : σ → τ} {track : ρ → ι × ο → ρ} {I : τ → ρ → Prop} {A : ρ → ι → Prop} {B : ρ → Prop}
    (hkept : ∀ t r i, I t r → I (reference t i).2 (track r (i, (reference t i).1)))
    (hstep : ∀ s r i, I (view s) r → A r i → B (track r (i, (reference (view s) i).1)) →
      (step s i).1 = (reference (view s) i).1 ∧ view (step s i).2 = (reference (view s) i).2) :
    ∀ (is : List ι) (s : σ) (r : ρ), I (view s) r →
      (∀ n i, is[n]? = some i → A ((trace reference (view s) (is.take n)).foldl track r) i) →
      (∀ n, B ((trace reference (view s) (is.take n)).foldl track r)) →
      trace step s is = trace reference (view s) is
        ∧ view (final step s is) = final reference (view s) is := by
  intro is
  induction is with
  | nil =>
      intro s r _ _ _
      exact ⟨rfl, rfl⟩
  | cons i is ih =>
      intro s r hI hA hB
      obtain ⟨hreply, hview⟩ := hstep s r i hI (hA 0 i rfl) (hB 1)
      have hI' := hkept (view s) r i hI
      rw [← hview] at hI'
      obtain ⟨htrace, hfinal⟩ := ih (step s i).2 _ hI'
        (fun n j hj => by rw [hview]; exact hA (n + 1) j hj)
        (fun n => by rw [hview]; exact hB (n + 1))
      rw [hview] at htrace hfinal
      exact ⟨by rw [trace, trace, htrace, hreply], hfinal⟩

/-- **LOG RULE**: when the entry that a call leaves in the log, if any, has the
    effect of the call, and is answered as told in the replay, a run is the
    replay of its log.  The invariant may count the calls. -/
theorem final_eq_replay {κ ο' : Type} {step : σ → ι → ο × σ} {replay : σ → κ → ο' × σ}
    {entry : ι × ο → Option κ} {A : ο' → Prop} {I : Nat → σ → Prop} {limit : Nat}
    (hkept : ∀ n s i, I n s → n < limit → I (n + 1) (step s i).2)
    (hentry : ∀ n s i, I n s → n < limit →
      (entry (i, (step s i).1)).elim ((step s i).2 = s)
        fun k => A (replay s k).1 ∧ (step s i).2 = (replay s k).2) :
    ∀ (is : List ι) (n : Nat) (s : σ), n + is.length ≤ limit → I n s →
      final step s is = final replay s ((trace step s is).filterMap entry)
        ∧ ∀ reply ∈ trace replay s ((trace step s is).filterMap entry), A reply.2 := by
  intro is
  induction is with
  | nil => exact fun _ _ _ _ => ⟨rfl, List.forall_mem_nil _⟩
  | cons i is ih =>
      intro n s hlength hI
      rw [List.length_cons] at hlength
      obtain ⟨hfinal, hreplies⟩ := ih (n + 1) (step s i).2 (by omega) (hkept n s i hI (by omega))
      have heffect := hentry n s i hI (by omega)
      rw [trace, List.filterMap_cons]
      cases hlogged : entry (i, (step s i).1) with
      | none =>
          rw [hlogged] at heffect
          dsimp only [Option.elim] at heffect ⊢
          rw [final, hfinal]
          rw [heffect] at hreplies ⊢
          exact ⟨rfl, hreplies⟩
      | some k =>
          rw [hlogged] at heffect
          obtain ⟨hreply, hnext⟩ := heffect
          dsimp only
          rw [final, hfinal, final, trace]
          rw [hnext] at hreplies ⊢
          exact ⟨rfl, List.forall_mem_cons.mpr ⟨hreply, hreplies⟩⟩

end Run
