import Mathlib.Data.List.Nodup
import Mathlib.Data.List.Perm.Basic

/-! # Ledgers of tokens

    Slots that hold at most one token each.  `tokens` lists what the slots
    hold.  Rewriting a slot exchanges what it held for what it holds now
    (`tokens_set`), and when no token is listed twice a token has one slot
    (`slot_unique`).  Conservation laws over whole runs are then permutations
    between such lists. -/

namespace Ledger

variable {σ τ : Type} {held : σ → Option τ}

/-- The tokens the slots hold, in order. -/
def tokens (held : σ → Option τ) (slots : List σ) : List τ := slots.filterMap held

theorem tokens_append (slots more : List σ) :
    tokens held (slots ++ more) = tokens held slots ++ tokens held more :=
  List.filterMap_append

theorem tokens_singleton (slot : σ) : tokens held [slot] = (held slot).toList := by
  rw [tokens]
  cases h : held slot with
  | none => rw [List.filterMap_cons_none h]; rfl
  | some t => rw [List.filterMap_cons_some h]; rfl

private theorem tokens_cons (slot : σ) (slots : List σ) :
    tokens held (slot :: slots) = (held slot).toList ++ tokens held slots := by
  rw [← List.singleton_append, tokens_append, tokens_singleton]

theorem mem_tokens {slots : List σ} {t : τ} :
    t ∈ tokens held slots ↔ ∃ slot ∈ slots, held slot = some t :=
  List.mem_filterMap

/-- Rewriting a slot exchanges its token. -/
theorem tokens_set {slots : List σ} {i : Nat} {old : σ} (hget : slots[i]? = some old) (new : σ) :
    ((held old).toList ++ tokens held (slots.set i new)).Perm
      ((held new).toList ++ tokens held slots) := by
  induction slots generalizing i with
  | nil => cases hget
  | cons slot slots ih =>
      cases i with
      | zero =>
          cases hget
          rw [List.set_cons_zero, tokens_cons, tokens_cons, ← List.append_assoc,
            ← List.append_assoc]
          exact List.perm_append_comm.append_right _
      | succ i =>
          rw [List.set_cons_succ, tokens_cons, tokens_cons]
          calc ((held old).toList ++ ((held slot).toList ++ tokens held (slots.set i new))).Perm
                ((held slot).toList ++ ((held old).toList ++ tokens held (slots.set i new))) :=
              List.perm_append_comm_assoc _ _ _
            List.Perm _ ((held slot).toList ++ ((held new).toList ++ tokens held slots)) :=
              (ih hget).append_left _
            List.Perm _ ((held new).toList ++ ((held slot).toList ++ tokens held slots)) :=
              List.perm_append_comm_assoc _ _ _

/-- A token that is listed once has one slot. -/
theorem slot_unique {slots : List σ} (hnodup : (tokens held slots).Nodup) {i j : Nat} {a b : σ}
    {t : τ} (hi : slots[i]? = some a) (hj : slots[j]? = some b) (ha : held a = some t)
    (hb : held b = some t) : i = j := by
  induction slots generalizing i j with
  | nil => cases hi
  | cons slot slots ih =>
      rw [tokens_cons, List.nodup_append] at hnodup
      obtain ⟨-, hrest, hapart⟩ := hnodup
      have hmem : ∀ k c, slots[k]? = some c → held c = some t → t ∈ tokens held slots :=
        fun k c hk hc => mem_tokens.mpr ⟨c, List.mem_of_getElem? hk, hc⟩
      cases i with
      | zero =>
          cases hi
          cases j with
          | zero => rfl
          | succ j => exact absurd rfl (hapart t (by rw [ha]; exact List.mem_cons_self) t
              (hmem j b hj hb))
      | succ i =>
          cases j with
          | zero =>
              cases hj
              exact absurd rfl (hapart t (by rw [hb]; exact List.mem_cons_self) t
                (hmem i a hi ha))
          | succ j => rw [ih hrest hi hj]

end Ledger
