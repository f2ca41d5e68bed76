import MattSql.Library.ByteSpanProofs

/-! # Read over write

    A log of writes, the newest first, and the buffer that results from them.
    `latest` is what the log says of an address: the cell of the newest write
    that covers it, or a blank one.

    A buffer REPLAYS a log when every cell is what the log says.  A blank buffer
    replays the empty log, and overwriting a span replays one more write, however
    the writes overlap; so a slice is read off the log (`Replays.slice`). -/

namespace WriteLog

open ByteSpan

variable {α : Type}

/-- Cells written from an address on. -/
structure Entry (α : Type) where
  offset : Nat
  cells : List α

def Entry.Covers (entry : Entry α) (address : Nat) : Prop :=
  entry.offset ≤ address ∧ address < entry.offset + entry.cells.length

instance (entry : Entry α) (address : Nat) : Decidable (entry.Covers address) :=
  inferInstanceAs (Decidable (_ ∧ _))

/-- What the newest write that covers the address put there. -/
def latest (blank : α) (log : List (Entry α)) (address : Nat) : α :=
  match log.find? fun entry => entry.Covers address with
  | none => blank
  | some entry => entry.cells.getD (address - entry.offset) blank

theorem latest_covered {blank : α} {entry : Entry α} {address : Nat} (h : entry.Covers address)
    (older : List (Entry α)) :
    latest blank (entry :: older) address = entry.cells.getD (address - entry.offset) blank := by
  have hfind : (entry :: older).find? (fun entry => entry.Covers address) = some entry :=
    List.find?_cons_of_pos (decide_eq_true h)
  rw [latest, hfind]

theorem latest_uncovered {blank : α} {entry : Entry α} {address : Nat} (h : ¬entry.Covers address)
    (older : List (Entry α)) :
    latest blank (entry :: older) address = latest blank older address := by
  have hfind : (entry :: older).find? (fun entry => entry.Covers address)
      = older.find? fun entry => entry.Covers address :=
    List.find?_cons_of_neg (by simpa using h)
  rw [latest, hfind]
  rfl

/-- Every cell is what the log says. -/
def Replays (blank : α) (cells : List α) (log : List (Entry α)) : Prop :=
  ∀ address < cells.length, cells[address]? = some (latest blank log address)

theorem replays_blank (blank : α) (n : Nat) : Replays blank (List.replicate n blank) [] := by
  intro address haddress
  rw [List.length_replicate] at haddress
  rw [List.getElem?_replicate, if_pos haddress]
  rfl

/-- **ONE MORE WRITE**, whatever it overlaps. -/
theorem Replays.splice {blank : α} {cells : List α} {log : List (Entry α)}
    (h : Replays blank cells log) {offset : Nat} {written : List α}
    (hfits : offset + written.length ≤ cells.length) :
    Replays blank (splice cells offset written) (⟨offset, written⟩ :: log) := by
  intro address haddress
  rw [length_splice hfits] at haddress
  rw [getElem?_splice hfits]
  by_cases hcovers : Entry.Covers ⟨offset, written⟩ address
  · obtain ⟨hstart, hend⟩ := hcovers
    dsimp only at hstart hend
    rw [if_neg (by omega), if_pos hend, latest_covered ⟨hstart, hend⟩,
      List.getD_eq_getElem?_getD]
    have hindex : address - offset < written.length := by omega
    rw [List.getElem?_eq_getElem hindex]
    rfl
  · rw [latest_uncovered hcovers, ← h address haddress]
    -- in front of the span or behind it
    by_cases hstart : address < offset
    · rw [if_pos hstart]
    · rw [if_neg hstart, if_neg fun hend => hcovers ⟨Nat.le_of_not_lt hstart, hend⟩]

/-- A slice is read off the log. -/
theorem Replays.slice {blank : α} {cells : List α} {log : List (Entry α)}
    (h : Replays blank cells log) {offset length : Nat} (hfits : offset + length ≤ cells.length) :
    slice cells offset length
      = (List.range length).map fun i => latest blank log (offset + i) := by
  refine List.ext_getElem? fun i => ?_
  rw [getElem?_slice, List.getElem?_map]
  by_cases hi : i < length
  · rw [if_pos hi, h (offset + i) (by omega), List.getElem?_range hi]
    rfl
  · rw [if_neg hi, List.getElem?_eq_none (by rw [List.length_range]; omega)]
    rfl

end WriteLog
