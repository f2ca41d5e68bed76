import Mathlib.Data.List.Basic
import Mathlib.Tactic.Ring

/-! # Little-endian words

    A word of `w` bytes is stored least significant byte first.  `wordBytes`
    writes a number out and `wordValue` reads bytes back; on `w` bytes the two
    are inverse to each other, and a written number comes back modulo
    `256 ^ w`. -/

namespace LittleEndian

/-- The number a byte sequence stands for, least significant byte first. -/
def wordValue (bs : List UInt8) : Nat :=
  bs.foldr (fun b acc => b.toNat + 256 * acc) 0

/-- The `w` low bytes of `n`, least significant byte first. -/
def wordBytes : (w n : Nat) → List UInt8
  | 0, _ => []
  | w + 1, n => UInt8.ofNat n :: wordBytes w (n / 256)

private theorem wordValue_cons (b : UInt8) (bs : List UInt8) :
    wordValue (b :: bs) = b.toNat + 256 * wordValue bs := rfl

private theorem wordBytes_succ (w n : Nat) :
    wordBytes (w + 1) n = UInt8.ofNat n :: wordBytes w (n / 256) := rfl

@[simp] theorem length_wordBytes (w n : Nat) : (wordBytes w n).length = w := by
  induction w generalizing n with
  | zero => rfl
  | succ w ih => rw [wordBytes_succ, List.length_cons, ih]

/-- Reading `w` bytes stays below `256 ^ w`. -/
theorem wordValue_lt (bs : List UInt8) : wordValue bs < 256 ^ bs.length := by
  induction bs with
  | nil => exact Nat.one_pos
  | cons b bs ih =>
      have hb : b.toNat < 256 := b.toNat_lt
      rw [wordValue_cons, List.length_cons, Nat.pow_succ']
      omega

/-- A number that fits in `w` bytes survives the round trip. -/
theorem wordValue_wordBytes {w n : Nat} (h : n < 256 ^ w) :
    wordValue (wordBytes w n) = n := by
  induction w generalizing n with
  | zero =>
      have : n = 0 := by
        rw [Nat.pow_zero] at h
        omega
      subst this
      rfl
  | succ w ih =>
      have hdiv : n / 256 < 256 ^ w := by
        rw [Nat.pow_succ'] at h
        exact Nat.div_lt_of_lt_mul h
      rw [wordBytes_succ, wordValue_cons, ih hdiv, UInt8.toNat_ofNat']
      omega

/-- Bytes survive the round trip through the number they stand for. -/
theorem wordBytes_wordValue (bs : List UInt8) :
    wordBytes bs.length (wordValue bs) = bs := by
  induction bs with
  | nil => rfl
  | cons b bs ih =>
      have hb : b.toNat < 256 := b.toNat_lt
      have hhead : UInt8.ofNat (b.toNat + 256 * wordValue bs) = b := by
        apply UInt8.toNat_inj.mp
        rw [UInt8.toNat_ofNat']
        omega
      have htail : (b.toNat + 256 * wordValue bs) / 256 = wordValue bs := by
        omega
      rw [List.length_cons, wordValue_cons, wordBytes_succ, hhead, htail, ih]

end LittleEndian
