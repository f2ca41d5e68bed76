import Mathlib.Data.Finmap

/-! # Finite maps

    What is found in a finite map after values are stored and erased, and what
    the entries weigh. -/

namespace FiniteMap

variable {α β : Type} [DecidableEq α] {m : Finmap fun _ : α => β} {a b : α} {v w : β}

/-- What is found after an insertion: the new value at its key, or what was
    there before. -/
theorem lookup_insert_cases (h : (m.insert a v).lookup b = some w) :
    (b = a ∧ v = w) ∨ (b ≠ a ∧ m.lookup b = some w) := by
  by_cases hb : b = a
  · subst hb
    rw [Finmap.lookup_insert] at h
    exact .inl ⟨rfl, Option.some.inj h⟩
  · rw [Finmap.lookup_insert_of_ne _ hb] at h
    exact .inr ⟨hb, h⟩

/-- What was there before an insertion at a used key is still there, or it is
    what the insertion replaced. -/
theorem lookup_insert_over (ha : m.lookup a = some v) (hb : m.lookup b = some w) (new : β) :
    (b = a ∧ w = v ∧ (m.insert a new).lookup b = some new)
      ∨ (m.insert a new).lookup b = some w := by
  by_cases heq : b = a
  · subst heq
    exact .inl ⟨rfl, Option.some.inj (hb.symm.trans ha), Finmap.lookup_insert _⟩
  · exact .inr ((Finmap.lookup_insert_of_ne _ heq).trans hb)

theorem lookup_erase_cases (h : (m.erase a).lookup b = some w) : b ≠ a ∧ m.lookup b = some w := by
  by_cases hb : b = a
  · subst hb
    rw [Finmap.lookup_erase] at h
    cases h
  · rw [Finmap.lookup_erase_ne hb] at h
    exact ⟨hb, h⟩

theorem ne_of_lookup_of_notMem (hb : m.lookup b = some w) (ha : a ∉ m) : b ≠ a := by
  intro heq
  subst heq
  rw [Finmap.lookup_eq_none.mpr ha] at hb
  cases hb

/-- The entries after an insertion: the new one, and those at other keys. -/
theorem entries_insert : (m.insert a v).entries = ⟨a, v⟩ ::ₘ (m.erase a).entries := by
  have hinsert : m.insert a v = (m.erase a).insert a v := by
    apply Finmap.ext_lookup
    intro b
    by_cases hb : b = a
    · rw [hb, Finmap.lookup_insert, Finmap.lookup_insert]
    · rw [Finmap.lookup_insert_of_ne _ hb, Finmap.lookup_insert_of_ne _ hb,
        Finmap.lookup_erase_ne hb]
  rw [hinsert]
  exact Finmap.entries_insert_of_notMem Finmap.notMem_erase_self

/-- The entries of a map that has the key. -/
theorem entries_of_lookup (h : m.lookup a = some v) :
    m.entries = ⟨a, v⟩ ::ₘ (m.erase a).entries := by
  have hsame : m.insert a v = m := by
    apply Finmap.ext_lookup
    intro b
    by_cases hb : b = a
    · rw [hb, Finmap.lookup_insert, h]
    · rw [Finmap.lookup_insert_of_ne _ hb]
  rw [← entries_insert, hsame]

/-- An insertion adds at most the new entry's weight. -/
theorem sum_insert_le (weight : (Σ _ : α, β) → Nat) :
    ((m.insert a v).entries.map weight).sum ≤ weight ⟨a, v⟩ + (m.entries.map weight).sum := by
  cases hfound : m.lookup a with
  | none =>
      rw [Finmap.entries_insert_of_notMem (Finmap.lookup_eq_none.mp hfound), Multiset.map_cons,
        Multiset.sum_cons]
  | some w =>
      rw [entries_insert, entries_of_lookup hfound]
      simp only [Multiset.map_cons, Multiset.sum_cons]
      omega

/-- Erasing several keys. -/
theorem lookup_foldl_erase {γ : Type} (key : γ → α) (gone : List γ) :
    (gone.foldl (fun m c => m.erase (key c)) m).lookup b
      = if b ∈ gone.map key then none else m.lookup b := by
  induction gone generalizing m with
  | nil => rfl
  | cons c gone ih =>
      rw [List.foldl_cons, ih, List.map_cons]
      by_cases hb : b ∈ gone.map key
      · rw [if_pos hb, if_pos (List.mem_cons_of_mem _ hb)]
      rw [if_neg hb]
      by_cases hc : b = key c
      · rw [if_pos (hc ▸ List.mem_cons_self), hc, Finmap.lookup_erase]
      · rw [if_neg (fun h => (List.mem_cons.mp h).elim hc hb), Finmap.lookup_erase_ne hc]

end FiniteMap
