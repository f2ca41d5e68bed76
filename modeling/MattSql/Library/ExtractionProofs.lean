import Mathlib.Data.List.Basic

/-! # Cutting pieces off a growing buffer

    An extractor takes a piece off the front of a buffer, or finds none.  It is
    STABLE when a piece it finds does not depend on what is appended to the
    buffer, and it ADVANCES when a piece is never empty.

    `drain` cuts until no piece is found.  `drainChunks_flatten` says that a
    stable extractor that advances cuts the same pieces however the text
    arrives: all at once, or chunk by chunk with a drain after each chunk.
    `Delimited.flatten_append_inj` says that pieces are known from the whole text
    when each ends in the only delimiter it has. -/

namespace Extraction

variable {α β : Type}

/-- Cut pieces, at most so many. -/
def drain (extract : List α → Option (β × List α)) : Nat → List α → List β × List α
  | 0, buffer => ([], buffer)
  | rounds + 1, buffer =>
    match extract buffer with
    | none => ([], buffer)
    | some (piece, rest) => (piece :: (drain extract rounds rest).1, (drain extract rounds rest).2)

/-- Cut all pieces. -/
def drainAll (extract : List α → Option (β × List α)) (buffer : List α) : List β × List α :=
  drain extract buffer.length buffer

/-- A chunk is appended to the buffer, and all pieces are cut. -/
def drainChunk (extract : List α → Option (β × List α)) (collected : List β × List α)
    (chunk : List α) : List β × List α :=
  (collected.1 ++ (drainAll extract (collected.2 ++ chunk)).1,
    (drainAll extract (collected.2 ++ chunk)).2)

/-- A piece is not empty. -/
def Advances (extract : List α → Option (β × List α)) : Prop :=
  ∀ buffer piece rest, extract buffer = some (piece, rest) → rest.length < buffer.length

/-- What is appended to the buffer changes no piece that is found. -/
def Stable (extract : List α → Option (β × List α)) : Prop :=
  ∀ buffer piece rest tail, extract buffer = some (piece, rest) →
    extract (buffer ++ tail) = some (piece, rest ++ tail)

variable {extract : List α → Option (β × List α)}

/-- As many rounds as there are cells are enough. -/
theorem drain_enough (h : Advances extract) {rounds : Nat} {buffer : List α}
    (hrounds : buffer.length ≤ rounds) : drain extract rounds buffer = drainAll extract buffer := by
  have hnil : extract [] = none := by
    cases hextract : extract [] with
    | none => rfl
    | some pair => exact absurd (h [] pair.1 pair.2 hextract) (Nat.not_lt_zero _)
  -- induction on the rounds, for both amounts at once
  have hsame : ∀ (rounds rounds' : Nat) (buffer : List α), buffer.length ≤ rounds →
      buffer.length ≤ rounds' → drain extract rounds buffer = drain extract rounds' buffer := by
    intro rounds
    induction rounds with
    | zero =>
        intro rounds' buffer hle _
        rw [List.length_eq_zero_iff.mp (Nat.le_zero.mp hle)]
        cases rounds' with
        | zero => rfl
        | succ rounds' => rw [drain, drain, hnil]
    | succ rounds ih =>
        intro rounds' buffer hle hle'
        cases rounds' with
        | zero =>
            rw [List.length_eq_zero_iff.mp (Nat.le_zero.mp hle'), drain, drain, hnil]
        | succ rounds' =>
            rw [drain, drain]
            cases hextract : extract buffer with
            | none => rfl
            | some pair =>
                have hshorter := h buffer pair.1 pair.2 hextract
                dsimp only
                rw [ih rounds' pair.2 (by omega) (by omega)]
  exact hsame rounds buffer.length buffer hrounds (Nat.le_refl _)

theorem drainAll_none {buffer : List α} (hextract : extract buffer = none) :
    drainAll extract buffer = ([], buffer) := by
  rw [drainAll]
  cases hlength : buffer.length with
  | zero => rfl
  | succ length => rw [drain, hextract]

theorem drainAll_some (h : Advances extract) {buffer rest : List α} {piece : β}
    (hextract : extract buffer = some (piece, rest)) :
    drainAll extract buffer = (piece :: (drainAll extract rest).1, (drainAll extract rest).2) := by
  have hshorter := h buffer piece rest hextract
  obtain ⟨rounds, hrounds⟩ :=
    Nat.exists_eq_add_one_of_ne_zero (Nat.ne_of_gt (Nat.lt_of_le_of_lt (Nat.zero_le _) hshorter))
  rw [drainAll, hrounds, drain, hextract]
  dsimp only
  rw [drain_enough h (by omega)]

/-- **CUTTING GOES ON** where it stopped when more text arrives.  The induction
    is on the length of the buffer. -/
theorem drainAll_append (h : Advances extract) (hstable : Stable extract)
    (buffer tail : List α) :
    drainAll extract (buffer ++ tail)
      = ((drainAll extract buffer).1
          ++ (drainAll extract ((drainAll extract buffer).2 ++ tail)).1,
        (drainAll extract ((drainAll extract buffer).2 ++ tail)).2) := by
  induction hlength : buffer.length using Nat.strongRecOn generalizing buffer with
  | _ length ih =>
    subst hlength
    cases hextract : extract buffer with
    | none => rw [drainAll_none hextract, List.nil_append]
    | some pair =>
        obtain ⟨piece, rest⟩ := pair
        rw [drainAll_some h (hstable buffer piece rest tail hextract), drainAll_some h hextract,
          ih rest.length (h buffer piece rest hextract) rest rfl]
        rfl

/-- Nothing is left to cut. -/
theorem drainAll_done (h : Advances extract) (buffer : List α) :
    extract (drainAll extract buffer).2 = none := by
  induction hlength : buffer.length using Nat.strongRecOn generalizing buffer with
  | _ length ih =>
    subst hlength
    cases hextract : extract buffer with
    | none =>
        rw [drainAll_none hextract]
        exact hextract
    | some pair =>
        obtain ⟨piece, rest⟩ := pair
        rw [drainAll_some h hextract]
        exact ih rest.length (h buffer piece rest hextract) rest rfl

/-- **CHUNKS DO NOT MATTER.** -/
theorem drainChunks_flatten (h : Advances extract) (hstable : Stable extract)
    (chunks : List (List α)) :
    chunks.foldl (drainChunk extract) ([], []) = drainAll extract chunks.flatten := by
  -- the buffer is what the drain of all text so far has left
  have hfrom : ∀ (chunks : List (List α)) (before : List α),
      chunks.foldl (drainChunk extract) (drainAll extract before)
        = drainAll extract (before ++ chunks.flatten) := by
    intro chunks
    induction chunks with
    | nil =>
        intro before
        rw [List.flatten_nil, List.append_nil]
        rfl
    | cons chunk chunks ih =>
        intro before
        rw [List.foldl_cons, drainChunk, ← drainAll_append h hstable, ih, List.flatten_cons,
          List.append_assoc]
  exact hfrom chunks []

/-! ## Delimited pieces -/

/-- The last element is a delimiter and the others are none. -/
def Delimited (stop : α → Bool) (piece : List α) : Prop :=
  ∃ front last, piece = front ++ [last] ∧ stop last = true ∧ ∀ a ∈ front, stop a = false

/-- The first piece is known from what follows. -/
theorem Delimited.append_inj {stop : α → Bool} {piece piece' rest rest' : List α}
    (h : Delimited stop piece) (h' : Delimited stop piece') (heq : piece ++ rest = piece' ++ rest') :
    piece = piece' ∧ rest = rest' := by
  have htake : ∀ {piece rest : List α}, Delimited stop piece →
      ∃ last, piece = (piece ++ rest).takeWhile (!stop ·) ++ [last] := by
    rintro _ rest ⟨front, last, rfl, hlast, hfront⟩
    refine ⟨last, ?_⟩
    rw [List.append_assoc, List.takeWhile_append_of_pos fun a ha => by rw [hfront a ha]; rfl,
      List.singleton_append, List.takeWhile_cons_of_neg (by rw [hlast]; decide), List.append_nil]
  obtain ⟨last, hpiece⟩ := @htake piece rest h
  obtain ⟨last', hpiece'⟩ := @htake piece' rest' h'
  have hlength : piece.length = piece'.length := by
    rw [hpiece, hpiece', heq, List.length_append, List.length_append]
    rfl
  exact List.append_inj heq hlength

/-- **PIECES ARE KNOWN FROM THE WHOLE** when each ends in its only delimiter and
    the text behind them has none. -/
theorem Delimited.flatten_append_inj {stop : α → Bool} {pieces pieces' : List (List α)}
    {rest rest' : List α} (h : ∀ piece ∈ pieces, Delimited stop piece)
    (h' : ∀ piece ∈ pieces', Delimited stop piece) (hrest : ∀ a ∈ rest, stop a = false)
    (hrest' : ∀ a ∈ rest', stop a = false)
    (heq : pieces.flatten ++ rest = pieces'.flatten ++ rest') : pieces = pieces' ∧ rest = rest' := by
  -- a text without a delimiter does not start with a piece
  have hnone : ∀ {piece text rest : List α}, Delimited stop piece → (∀ a ∈ rest, stop a = false) →
      rest ≠ piece ++ text := by
    rintro _ text _ ⟨front, last, rfl, hlast, -⟩ hrest rfl
    have hmem : last ∈ front ++ [last] ++ text :=
      List.mem_append_left _ (List.mem_append_right _ (List.mem_singleton.mpr rfl))
    rw [hrest last hmem] at hlast
    cases hlast
  induction pieces generalizing pieces' with
  | nil =>
      cases pieces' with
      | nil => exact ⟨rfl, heq⟩
      | cons piece' more' =>
          rw [List.flatten_cons, List.append_assoc] at heq
          exact absurd heq (hnone (h' piece' List.mem_cons_self) hrest)
  | cons piece more ih =>
      rw [List.flatten_cons, List.append_assoc] at heq
      cases pieces' with
      | nil => exact absurd heq.symm (hnone (h piece List.mem_cons_self) hrest')
      | cons piece' more' =>
          rw [List.flatten_cons, List.append_assoc] at heq
          obtain ⟨rfl, hmore⟩ := (h piece List.mem_cons_self).append_inj
            (h' piece' List.mem_cons_self) heq
          obtain ⟨rfl, hsame⟩ := ih (fun p hp => h p (List.mem_cons_of_mem _ hp))
            (fun p hp => h' p (List.mem_cons_of_mem _ hp)) hmore
          exact ⟨rfl, hsame⟩

end Extraction
