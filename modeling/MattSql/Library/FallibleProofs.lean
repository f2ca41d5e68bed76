import Mathlib.Data.List.Forall2

/-! # Code that may fail

    What a sequence of steps or a traversal of a list returns, when every step
    returns a value or fails.

    For code over a state, `Finishes` is the rule of one run: it returns with a
    postcondition, or fails in an allowed way.  `Agree` is the rule of two runs:
    both return, with a relation between what they return, or both fail. -/

namespace Fallible

variable {σ ε α β γ : Type}

/-! ## Sequences and traversals -/

/-- A sequenced computation succeeds exactly when both parts do. -/
theorem bind_ok_iff {x : Except ε α} {f : α → Except ε β} {b : β} :
    (x >>= f) = .ok b ↔ ∃ a, x = .ok a ∧ f a = .ok b := by
  cases x with
  | error e =>
      constructor
      · intro h
        exact nomatch h
      · rintro ⟨_, h, _⟩
        exact nomatch h
  | ok a =>
      constructor
      · intro h
        exact ⟨a, rfl, h⟩
      · rintro ⟨a', ha, h⟩
        cases ha
        exact h

/-- A sequenced computation fails with the first failure met. -/
theorem bind_error_iff {x : Except ε α} {f : α → Except ε β} {e : ε} :
    (x >>= f) = .error e
      ↔ x = .error e ∨ ∃ a, x = .ok a ∧ f a = .error e := by
  cases x with
  | error e' =>
      constructor
      · intro h
        cases h
        exact Or.inl rfl
      · rintro (h | ⟨_, h, _⟩)
        · cases h
          rfl
        · exact nomatch h
  | ok a =>
      constructor
      · intro h
        exact Or.inr ⟨a, rfl, h⟩
      · rintro (h | ⟨a', ha, h⟩)
        · exact nomatch h
        · cases ha
          exact h

theorem ok_bind (a : α) (f : α → Except ε β) :
    ((.ok a : Except ε α) >>= f) = f a := rfl

/-- Two results that agree after mapping fail alike or have values that do. -/
theorem map_eq_map_iff {x : Except ε α} {y : Except ε β} {f : α → γ} {g : β → γ} :
    f <$> x = g <$> y
      ↔ (∃ e, x = .error e ∧ y = .error e)
        ∨ ∃ a b, x = .ok a ∧ y = .ok b ∧ f a = g b := by
  constructor
  · intro h
    cases x with
    | error e =>
        cases y with
        | error e' =>
            cases h
            exact Or.inl ⟨e, rfl, rfl⟩
        | ok b => exact nomatch h
    | ok a =>
        cases y with
        | error e' => exact nomatch h
        | ok b => exact Or.inr ⟨a, b, rfl, rfl, Except.ok.inj h⟩
  · rintro (⟨e, rfl, rfl⟩ | ⟨a, b, rfl, rfl, h⟩)
    · rfl
    · exact congrArg Except.ok h

/-- A traversal succeeds exactly when every element does. -/
theorem mapM_ok_iff {f : α → Except ε β} {as : List α} {bs : List β} :
    as.mapM f = .ok bs ↔ List.Forall₂ (fun a b => f a = .ok b) as bs := by
  induction as generalizing bs with
  | nil =>
      rw [List.forall₂_nil_left_iff]
      constructor
      · intro h
        cases h
        rfl
      · rintro rfl
        rfl
  | cons a as ih =>
      rw [List.mapM_cons, bind_ok_iff]
      constructor
      · rintro ⟨b, hb, h⟩
        obtain ⟨bs', hbs, h⟩ := bind_ok_iff.mp h
        cases h
        exact .cons hb (ih.mp hbs)
      · rintro (_ | ⟨hb, hbs⟩)
        exact ⟨_, hb, bind_ok_iff.mpr ⟨_, ih.mpr hbs, rfl⟩⟩

/-- A traversal of elements that all succeed. -/
theorem mapM_eq_map {f : α → Except ε β} {g : α → β} {as : List α}
    (h : ∀ a ∈ as, f a = .ok (g a)) : as.mapM f = .ok (as.map g) := by
  induction as with
  | nil => rfl
  | cons a as ih =>
      rw [List.mapM_cons, h a List.mem_cons_self,
        ih fun b hb => h b (List.mem_cons_of_mem a hb)]
      rfl

/-- A traversal that leaves every element as it is. -/
theorem mapM_eq_self {f : α → Except ε α} {l : List α}
    (h : ∀ a ∈ l, f a = .ok a) : l.mapM f = .ok l := by
  rw [mapM_eq_map h, List.map_id']

/-- In two paired lists every element on the right has a partner. -/
theorem forall₂_exists_left {R : α → β → Prop} {as : List α} {bs : List β}
    (h : List.Forall₂ R as bs) : ∀ b ∈ bs, ∃ a ∈ as, R a b := by
  induction h with
  | nil => exact nofun
  | @cons a b as bs hab _ ih =>
      intro b' hb'
      rcases List.mem_cons.mp hb' with rfl | hb'
      · exact ⟨a, List.mem_cons_self, hab⟩
      · obtain ⟨a', ha', hr⟩ := ih b' hb'
        exact ⟨a', List.mem_cons_of_mem _ ha', hr⟩

/-- Every element of a traversal that succeeds has a result. -/
theorem mapM_ok_mem {f : α → Except ε β} {as : List α} {bs : List β}
    (h : as.mapM f = .ok bs) : ∀ a ∈ as, ∃ b, f a = .ok b := by
  intro a ha
  obtain ⟨b, -, hb⟩ := forall₂_exists_left (mapM_ok_iff.mp h).flip a ha
  exact ⟨b, hb⟩

/-- A traversal fails with the failure of an element. -/
theorem mapM_error {f : α → Except ε β} {as : List α} {e : ε}
    (h : as.mapM f = .error e) : ∃ a ∈ as, f a = .error e := by
  induction as with
  | nil => exact nomatch h
  | cons a as ih =>
      rw [List.mapM_cons] at h
      rcases bind_error_iff.mp h with h | ⟨b, -, h⟩
      · exact ⟨a, List.mem_cons_self, h⟩
      · rcases bind_error_iff.mp h with h | ⟨bs, -, h⟩
        · obtain ⟨a', ha', h⟩ := ih h
          exact ⟨a', List.mem_cons_of_mem a ha', h⟩
        · exact nomatch h

/-- A traversal whose steps all succeed, with a property of what they return. -/
theorem mapM_forall_exists {f : α → Except ε β} {Q : β → Prop} {as : List α}
    (h : ∀ a ∈ as, ∃ b, f a = .ok b ∧ Q b) :
    ∃ bs, as.mapM f = .ok bs ∧ bs.length = as.length ∧ ∀ b ∈ bs, Q b := by
  induction as with
  | nil => exact ⟨[], rfl, rfl, fun _ hmem => absurd hmem List.not_mem_nil⟩
  | cons a as ih =>
      obtain ⟨b, hb, hQ⟩ := h a List.mem_cons_self
      obtain ⟨bs, hbs, hlen, hQs⟩ := ih fun c hc => h c (List.mem_cons_of_mem a hc)
      refine ⟨b :: bs, ?_, congrArg (· + 1) hlen, List.forall_mem_cons.mpr ⟨hQ, hQs⟩⟩
      rw [List.mapM_cons, hb, hbs]
      rfl

/-! ## Code over a state -/

/-- From `s` the code returns with the postcondition, or fails with an allowed
    failure. -/
def Finishes (allowed : ε → Prop) (m : StateT σ (Except ε) α) (s : σ)
    (post : α → σ → Prop) : Prop :=
  (∃ a t, m s = .ok (a, t) ∧ post a t) ∨ ∃ e, m s = .error e ∧ allowed e

section

variable {allowed : ε → Prop} {m : StateT σ (Except ε) α} {f : α → StateT σ (Except ε) β}
  {s : σ} {mid : α → σ → Prop} {post post' : α → σ → Prop} {last : β → σ → Prop}

theorem Finishes.pure {a : α} (h : post a s) :
    Finishes allowed (Pure.pure a : StateT σ (Except ε) α) s post :=
  Or.inl ⟨a, s, rfl, h⟩

/-- A weaker postcondition. -/
theorem Finishes.mono (h : Finishes allowed m s post) (himp : ∀ a t, post a t → post' a t) :
    Finishes allowed m s post' := by
  rcases h with ⟨a, t, heq, hpost⟩ | hfail
  · exact Or.inl ⟨a, t, heq, himp a t hpost⟩
  · exact Or.inr hfail

/-- **SEQUENCING RULE**. -/
theorem Finishes.bind (h : Finishes allowed m s mid)
    (hf : ∀ a t, mid a t → Finishes allowed (f a) t last) :
    Finishes allowed (m >>= f) s last := by
  rw [Finishes]
  show (∃ b t, (m s >>= fun r => f r.1 r.2) = .ok (b, t) ∧ last b t)
    ∨ ∃ e, (m s >>= fun r => f r.1 r.2) = .error e ∧ allowed e
  rcases h with ⟨a, t, heq, hmid⟩ | ⟨e, heq, hallowed⟩
  · rw [heq]
    exact hf a t hmid
  · rw [heq]
    exact Or.inr ⟨e, rfl, hallowed⟩

end

/-- From `s` and `s'` both return, with the postcondition, or both fail. -/
def Agree (m m' : StateT σ (Except ε) α) (s s' : σ) (post : α → α → σ → σ → Prop) : Prop :=
  (∃ a t a' t', m s = .ok (a, t) ∧ m' s' = .ok (a', t') ∧ post a a' t t')
    ∨ (∃ e, m s = .error e) ∧ ∃ e', m' s' = .error e'

section

variable {m m' : StateT σ (Except ε) α} {f f' : α → StateT σ (Except ε) β} {s s' : σ}
  {mid post : α → α → σ → σ → Prop} {last : β → β → σ → σ → Prop}

theorem Agree.pure {a a' : α} (h : post a a' s s') :
    Agree (Pure.pure a : StateT σ (Except ε) α) (Pure.pure a') s s' post :=
  Or.inl ⟨a, s, a', s', rfl, rfl, h⟩

/-- **SEQUENCING RULE** of two runs. -/
theorem Agree.bind (h : Agree m m' s s' mid)
    (hf : ∀ a a' t t', mid a a' t t' → Agree (f a) (f' a') t t' last) :
    Agree (m >>= f) (m' >>= f') s s' last := by
  rw [Agree]
  show (∃ b t b' t', (m s >>= fun r => f r.1 r.2) = .ok (b, t)
      ∧ (m' s' >>= fun r => f' r.1 r.2) = .ok (b', t') ∧ last b b' t t')
    ∨ (∃ e, (m s >>= fun r => f r.1 r.2) = .error e)
      ∧ ∃ e', (m' s' >>= fun r => f' r.1 r.2) = .error e'
  rcases h with ⟨a, t, a', t', heq, heq', hmid⟩ | ⟨⟨e, heq⟩, e', heq'⟩
  · rw [heq, heq']
    exact hf a a' t t' hmid
  · rw [heq, heq']
    exact Or.inr ⟨⟨e, rfl⟩, e', rfl⟩

end

end Fallible
