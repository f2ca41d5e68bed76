import MattSql.Library.ByteSpanProofs
import MattSql.Library.LittleEndianProofs
import MattSql.ValueProofs

/-! # Byte input and output

    `storage/byte_io.hpp` over the span and word libraries.  Reads are checked
    in the source; `WriteLittleEndianAt` is not, so the model's writer answers
    `none` where the C++ loop would store outside the buffer. -/

namespace MattSql

open ByteSpan LittleEndian

/-- `AppendLittleEndian` for a `width`-byte unsigned integer. -/
def appendLittleEndian (bytes : Bytes) (width value : Nat) : Bytes :=
  bytes ++ wordBytes width value

/-- `ReadLittleEndian`: the word at `offset` and the offset after it, or
    `none` when fewer than `width` bytes are left. -/
def readLittleEndian (width : Nat) (bytes : Bytes) (offset : Nat) :
    Option (Nat × Nat) :=
  if offset > bytes.length ∨ bytes.length - offset < width then none
  else some (wordValue (slice bytes offset width), offset + width)

/-- `ReadLittleEndianAt`: the word at `offset`, or 0 when it is cut off. -/
def readLittleEndianAt (width : Nat) (bytes : Bytes) (offset : Nat) : Nat :=
  match readLittleEndian width bytes offset with
  | some (value, _) => value
  | none => 0

/-- `WriteLittleEndianAt`. -/
def writeLittleEndianAt (width : Nat) (bytes : Bytes) (offset value : Nat) :
    Option Bytes :=
  store bytes offset (wordBytes width value)

theorem readLittleEndian_of_le {width : Nat} {bytes : Bytes} {offset : Nat}
    (h : offset + width ≤ bytes.length) :
    readLittleEndian width bytes offset
      = some (wordValue (slice bytes offset width), offset + width) := by
  rw [readLittleEndian, if_neg (by omega)]

/-- **A WORD IS READ** exactly where its bytes stand. -/
theorem readLittleEndian_iff {width : Nat} (hw : 0 < width) {bytes : Bytes}
    {offset value next : Nat} :
    readLittleEndian width bytes offset = some (value, next)
      ↔ value < 256 ^ width ∧ Holds bytes offset (wordBytes width value)
        ∧ next = offset + width := by
  constructor
  · intro h
    rw [readLittleEndian] at h
    split at h
    · exact nomatch h
    · rename_i hin
      cases h
      have hle : offset + width ≤ bytes.length := by omega
      have hlen := length_slice_of_le hle
      have hlt := wordValue_lt (slice bytes offset width)
      have hback := wordBytes_wordValue (slice bytes offset width)
      rw [hlen] at hlt hback
      refine ⟨hlt, ?_, rfl⟩
      rw [hback]
      exact holds_slice hle
  · rintro ⟨hlt, hh, rfl⟩
    have hlen := length_wordBytes width value
    have hle : offset + width ≤ bytes.length := by
      have := hh.le (fun h0 => by rw [h0] at hlen; exact absurd hlen (by simp; omega))
      omega
    have hs : slice bytes offset width = wordBytes width value := by
      rw [Holds] at hh
      rw [hlen] at hh
      exact hh
    rw [readLittleEndian_of_le hle, hs, wordValue_wordBytes hlt]

end MattSql
