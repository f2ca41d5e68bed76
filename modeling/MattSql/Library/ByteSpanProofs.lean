import Mathlib.Data.List.Basic
import Mathlib.Data.List.TakeDrop

/-! # Spans of a buffer — reading and overwriting a range in place

    A buffer is a list of cells, a span is an offset with a length.  `slice`
    reads a span, `splice` overwrites one, and `store` is the checked form of
    `splice` that refuses a span outside the buffer.

    The two facts everything else rests on are the pointwise readings
    `getElem?_slice` and `getElem?_splice`: a cell of an overwritten buffer is
    the new cell inside the span and the old one outside it.  The frame rule
    `slice_splice_of_disjoint` follows by comparing cells. -/

namespace ByteSpan

variable {α : Type}

/-- The `len` cells of `xs` from `off` on. -/
def slice (xs : List α) (off len : Nat) : List α :=
  (xs.drop off).take len

/-- `xs` with the cells from `off` on replaced by `ys`. -/
def splice (xs : List α) (off : Nat) (ys : List α) : List α :=
  xs.take off ++ (ys ++ xs.drop (off + ys.length))

/-- Checked overwrite: `none` when the span does not lie inside the buffer. -/
def store (xs : List α) (off : Nat) (ys : List α) : Option (List α) :=
  if off + ys.length ≤ xs.length then some (splice xs off ys) else none

theorem getElem?_slice (xs : List α) (off len i : Nat) :
    (slice xs off len)[i]? = if i < len then xs[off + i]? else none := by
  rw [slice, List.getElem?_take]
  by_cases h : i < len
  · rw [if_pos h, if_pos h, List.getElem?_drop]
  · rw [if_neg h, if_neg h]

@[simp] theorem length_slice (xs : List α) (off len : Nat) :
    (slice xs off len).length = min len (xs.length - off) := by
  rw [slice, List.length_take, List.length_drop]

/-- A slice inside the buffer has the asked length. -/
theorem length_slice_of_le {xs : List α} {off len : Nat}
    (h : off + len ≤ xs.length) : (slice xs off len).length = len := by
  rw [length_slice]
  omega

theorem length_splice {xs : List α} {off : Nat} {ys : List α}
    (h : off + ys.length ≤ xs.length) :
    (splice xs off ys).length = xs.length := by
  rw [splice, List.length_append, List.length_append, List.length_take,
    List.length_drop]
  omega

/-- Reading one cell of an overwritten buffer. -/
theorem getElem?_splice {xs : List α} {off : Nat} {ys : List α}
    (h : off + ys.length ≤ xs.length) (i : Nat) :
    (splice xs off ys)[i]?
      = if i < off then xs[i]?
        else if i < off + ys.length then ys[i - off]? else xs[i]? := by
  have hlen : (xs.take off).length = off := by
    rw [List.length_take]
    omega
  rw [splice]
  by_cases hlo : i < off
  · rw [if_pos hlo, List.getElem?_append_left (by omega), List.getElem?_take,
      if_pos hlo]
  · rw [if_neg hlo, List.getElem?_append_right (by omega), hlen]
    by_cases hhi : i < off + ys.length
    · rw [if_pos hhi, List.getElem?_append_left (by omega)]
    · rw [if_neg hhi, List.getElem?_append_right (by omega),
        List.getElem?_drop]
      congr 1
      omega

/-- What was written is what is read. -/
theorem slice_splice_self {xs : List α} {off : Nat} {ys : List α}
    (h : off + ys.length ≤ xs.length) :
    slice (splice xs off ys) off ys.length = ys := by
  apply List.ext_getElem?
  intro i
  rw [getElem?_slice]
  by_cases hi : i < ys.length
  · rw [if_pos hi, getElem?_splice h, if_neg (by omega), if_pos (by omega),
      Nat.add_sub_cancel_left]
  · rw [if_neg hi, List.getElem?_eq_none (by omega)]

/-- **FRAME RULE**: a span off the written one reads as before. -/
theorem slice_splice_of_disjoint {xs : List α} {off : Nat} {ys : List α}
    {o n : Nat} (h : off + ys.length ≤ xs.length)
    (hd : o + n ≤ off ∨ off + ys.length ≤ o) :
    slice (splice xs off ys) o n = slice xs o n := by
  apply List.ext_getElem?
  intro i
  rw [getElem?_slice, getElem?_slice]
  by_cases hi : i < n
  · rw [if_pos hi, if_pos hi, getElem?_splice h]
    rcases hd with hd | hd
    · rw [if_pos (by omega)]
    · rw [if_neg (by omega), if_neg (by omega)]
  · rw [if_neg hi, if_neg hi]

/-- Two adjacent overwrites are one. -/
theorem splice_splice_adjacent (xs : List α) (off : Nat) (ys zs : List α)
    (h : off + ys.length + zs.length ≤ xs.length) :
    splice (splice xs off ys) (off + ys.length) zs
      = splice xs off (ys ++ zs) := by
  have hy : off + ys.length ≤ xs.length := by omega
  have hz : off + ys.length + zs.length ≤ (splice xs off ys).length := by
    rw [length_splice hy]
    exact h
  have hyz : off + (ys ++ zs).length ≤ xs.length := by
    rw [List.length_append]
    omega
  apply List.ext_getElem?
  intro i
  rw [getElem?_splice hz, getElem?_splice hy, getElem?_splice hyz,
    List.length_append]
  -- in front of both, in the first, in the second, behind both
  by_cases h1 : i < off
  · rw [if_pos (by omega), if_pos h1, if_pos h1]
  · rw [if_neg h1, if_neg h1]
    by_cases h2 : i < off + ys.length
    · rw [if_pos h2, if_pos h2, if_pos (by omega),
        List.getElem?_append_left (by omega)]
    · rw [if_neg h2, if_neg h2]
      by_cases h3 : i < off + ys.length + zs.length
      · rw [if_pos h3, if_pos (by omega),
          List.getElem?_append_right (by omega)]
        congr 1
        omega
      · rw [if_neg h3, if_neg (by omega)]

theorem store_of_le {xs : List α} {off : Nat} {ys : List α}
    (h : off + ys.length ≤ xs.length) :
    store xs off ys = some (splice xs off ys) := by
  rw [store, if_pos h]

/-- Consecutive slices concatenate. -/
theorem slice_append_slice (xs : List α) (off m n : Nat) :
    slice xs off m ++ slice xs (off + m) n = slice xs off (m + n) := by
  rw [slice, slice, slice, List.take_add, List.drop_drop]

/-! ## What stands at an offset -/

/-- The cells `ys` stand in `xs` at `off`. -/
def Holds (xs : List α) (off : Nat) (ys : List α) : Prop :=
  slice xs off ys.length = ys

theorem holds_nil (xs : List α) (off : Nat) : Holds xs off [] := by
  show slice xs off 0 = []
  rw [slice, List.take_zero]

theorem holds_append {xs : List α} {off : Nat} {ys zs : List α} :
    Holds xs off (ys ++ zs)
      ↔ Holds xs off ys ∧ Holds xs (off + ys.length) zs := by
  rw [Holds]
  rw [List.length_append, ← slice_append_slice]
  constructor
  · intro h
    have hlen := congrArg List.length h
    rw [List.length_append, List.length_append, length_slice, length_slice]
      at hlen
    exact List.append_inj h (by rw [length_slice]; omega)
  · rintro ⟨hy, hz⟩
    rw [hy, hz]

theorem holds_cons {xs : List α} {off : Nat} {y : α} {ys : List α} :
    Holds xs off (y :: ys) ↔ xs[off]? = some y ∧ Holds xs (off + 1) ys := by
  have hone : Holds xs off [y] ↔ xs[off]? = some y := by
    constructor
    · intro h
      have h0 := congrArg (fun l => l[0]?) h
      simpa [getElem?_slice] using h0
    · intro h
      apply List.ext_getElem?
      intro i
      rw [getElem?_slice]
      cases i with
      | zero => simpa using h
      | succ i => simp
  rw [← List.singleton_append, holds_append, hone]
  rfl

/-- What stands at an offset lies inside the buffer. -/
theorem Holds.le {xs : List α} {off : Nat} {ys : List α} (h : Holds xs off ys)
    (hne : ys ≠ []) : off + ys.length ≤ xs.length := by
  have hlen := congrArg List.length h
  have hpos := List.length_pos_iff.mpr hne
  rw [length_slice] at hlen
  omega

/-- A slice stands where it was cut out. -/
theorem holds_slice {xs : List α} {off n : Nat} (h : off + n ≤ xs.length) :
    Holds xs off (slice xs off n) := by
  rw [Holds]
  rw [length_slice_of_le h]

/-- The buffer stands at the start of itself, alone. -/
theorem holds_zero_iff {xs ys : List α} :
    Holds xs 0 ys ∧ ys.length = xs.length ↔ ys = xs := by
  constructor
  · rintro ⟨h, hlen⟩
    rw [← h, hlen, slice, List.drop_zero, List.take_length]
  · rintro rfl
    refine ⟨?_, rfl⟩
    rw [Holds, slice]
    rw [List.drop_zero, List.take_length]

end ByteSpan
