import MattSql.SlottedPageProofs

/-! # Slotted pages with arbitrary contents

    A page read back from a damaged medium has any header and any bytes.  Only
    the header is validated up front; slot entries are looked at when they are
    used.

    The first part writes the operations out byte by byte over memory in which
    an access outside the payload has no result.  Each of them has one, on
    every page, and it is that of the page model (`insertBytes_eq`,
    `readBytes_eq`, `deleteBytes_eq`).  The second part is the frame rule for
    pages whose header is valid and whose entries may be garbage: what could
    be read, or was known not to be there, is so after every other insert and
    delete. -/

namespace MattSql

open ByteSpan LittleEndian

/-! ## Byte by byte -/

/-- The loop of `ReadLittleEndian` over `width` bytes. -/
def loadWord (bytes : Bytes) : (width offset : Nat) → Option Nat
  | 0, _ => some 0
  | width + 1, offset => do
    let byte ← bytes[offset]?
    let rest ← loadWord bytes width (offset + 1)
    some (byte.toNat + 256 * rest)

/-- The bytes of a span, one after the other. -/
def loadBytes (bytes : Bytes) : (size offset : Nat) → Option Bytes
  | 0, _ => some []
  | size + 1, offset => do
    let byte ← bytes[offset]?
    let rest ← loadBytes bytes size (offset + 1)
    some (byte :: rest)

/-- The loops of `std::copy` and `WriteLittleEndianAt`. -/
def storeBytes : (source bytes : Bytes) → (offset : Nat) → Option Bytes
  | [], bytes, _ => some bytes
  | byte :: source, bytes, offset =>
    if offset < bytes.length then storeBytes source (bytes.set offset byte) (offset + 1)
    else none

/-- `read_u16`: the check of `ReadLittleEndian`, then its loop. -/
def loadU16 (bytes : Bytes) (offset : Nat) : Option Nat :=
  if offset > bytes.length ∨ bytes.length - offset < 2 then some 0
  else loadWord bytes 2 offset

/-- `read_slot`. -/
def loadSlot (bytes : Bytes) (slotId : Nat) : Option SlotEntry := do
  let offset ← loadU16 bytes (slotId * kSlotEntrySize)
  let size ← loadU16 bytes (slotId * kSlotEntrySize + 2)
  let flags ← loadU16 bytes (slotId * kSlotEntrySize + 4)
  some ⟨offset, size, flags⟩

/-- `write_slot`. -/
def storeSlot (bytes : Bytes) (slotId : Nat) (entry : SlotEntry) : Option Bytes := do
  let bytes ← storeBytes (wordBytes 2 entry.offset) bytes (slotId * kSlotEntrySize)
  let bytes ← storeBytes (wordBytes 2 entry.size) bytes (slotId * kSlotEntrySize + 2)
  storeBytes (wordBytes 2 entry.flags) bytes (slotId * kSlotEntrySize + 4)

/-- The loop of `find_deleted_slot` with `remaining` slots left. -/
def loadDeletedSlot (bytes : Bytes) : (remaining index : Nat) → Option (Option Nat)
  | 0, _ => some none
  | remaining + 1, index => do
    let entry ← loadSlot bytes index
    if isDeleted entry then some (some index) else loadDeletedSlot bytes remaining (index + 1)

/-- `Insert` byte by byte; `none` when it leaves the payload. -/
def Page.insertBytes (page : Page) (record : Bytes) : Option (Result Nat × Page) :=
  match validatePage page with
  | some st => some (.error st, page)
  | none =>
    if record.length > kMaxU16 then
      some (errorResult .invalidArgument
        (ascii "record is larger than 16-bit slots support"), page)
    else do
      let deletedSlot ← loadDeletedSlot page.bytes (MattSql.slotCount page.header) 0
      let slotSpace := if deletedSlot.isSome then 0 else kSlotEntrySize
      if record.length + slotSpace > page.header.upper - page.header.lower then
        some (errorResult .invalidArgument
          (ascii "not enough free space in slotted page"), page)
      else
        let recordOffset := toU16 (page.header.upper - record.length)
        let bytes ← storeBytes record page.bytes recordOffset
        let slotId := deletedSlot.getD (toU16 (MattSql.slotCount page.header))
        let lower :=
          if deletedSlot.isSome then page.header.lower
          else toU16 (page.header.lower + kSlotEntrySize)
        let bytes ← storeSlot bytes slotId ⟨recordOffset, toU16 record.length, 0⟩
        some (.ok slotId,
          { header := { page.header with lower := lower, upper := recordOffset }
            bytes := bytes })

/-- `Read` byte by byte, with the bytes of the record it returns. -/
def Page.readBytes (page : Page) (slotId : Nat) : Option (Result RecordView) :=
  match validatePage page with
  | some st => some (.error st)
  | none =>
    if slotId ≥ MattSql.slotCount page.header then
      some (errorResult .notFound (ascii "slot not found"))
    else do
      let entry ← loadSlot page.bytes slotId
      if isDeleted entry then some (errorResult .notFound (ascii "slot is deleted"))
      else
        match validateSlotBounds page entry with
        | some st => some (.error st)
        | none =>
          let record ← loadBytes page.bytes entry.size entry.offset
          some (.ok ⟨⟨page.header.pageId, slotId⟩, record⟩)

/-- `Delete` byte by byte. -/
def Page.deleteBytes (page : Page) (slotId : Nat) : Option (Result Unit × Page) :=
  match validatePage page with
  | some st => some (.error st, page)
  | none =>
    if slotId ≥ MattSql.slotCount page.header then
      some (errorResult .notFound (ascii "slot not found"), page)
    else do
      let entry ← loadSlot page.bytes slotId
      if isDeleted entry then some (errorResult .notFound (ascii "slot is deleted"), page)
      else
        match validateSlotBounds page entry with
        | some st => some (.error st, page)
        | none =>
          let bytes ← storeSlot page.bytes slotId
            { entry with flags := entry.flags ||| kSlotDeleted }
          some (.ok (), { page with bytes := bytes })

/-! A loop inside the payload has a result. -/

theorem loadBytes_eq {bytes : Bytes} {size offset : Nat} (h : offset + size ≤ bytes.length) :
    loadBytes bytes size offset = some (slice bytes offset size) := by
  induction size generalizing offset with
  | zero =>
      rw [loadBytes, slice, List.take_zero]
  | succ size ih =>
      have hlt : offset < bytes.length := by omega
      rw [loadBytes, List.getElem?_eq_getElem hlt, ih (by omega)]
      show some (bytes[offset] :: slice bytes (offset + 1) size) = _
      rw [slice, slice, List.drop_eq_getElem_cons hlt, List.take_succ_cons]

theorem loadWord_eq {bytes : Bytes} {width offset : Nat} (h : offset + width ≤ bytes.length) :
    loadWord bytes width offset = some (wordValue (slice bytes offset width)) := by
  induction width generalizing offset with
  | zero =>
      rw [loadWord, slice, List.take_zero]
      rfl
  | succ width ih =>
      have hlt : offset < bytes.length := by omega
      rw [loadWord, List.getElem?_eq_getElem hlt, ih (by omega)]
      show some (bytes[offset].toNat + 256 * wordValue (slice bytes (offset + 1) width)) = _
      rw [slice, slice, List.drop_eq_getElem_cons hlt, List.take_succ_cons]
      rfl

theorem storeBytes_eq {source bytes : Bytes} {offset : Nat}
    (h : offset + source.length ≤ bytes.length) :
    storeBytes source bytes offset = some (splice bytes offset source) := by
  induction source generalizing bytes offset with
  | nil =>
      rw [storeBytes, splice, List.nil_append, List.length_nil, Nat.add_zero,
        List.take_append_drop]
  | cons byte source ih =>
      rw [List.length_cons] at h
      have hlt : offset < bytes.length := by omega
      have hset : bytes.set offset byte = splice bytes offset [byte] := by
        rw [List.set_eq_take_append_cons_drop, if_pos hlt]
        rfl
      rw [storeBytes, if_pos hlt, ih (by rw [List.length_set]; omega), hset,
        ← List.singleton_append]
      exact congrArg some (splice_splice_adjacent bytes offset [byte] source
        (by rw [List.length_singleton]; omega))

/-- The checked reads have a result at any offset. -/
theorem loadU16_eq (bytes : Bytes) (offset : Nat) :
    loadU16 bytes offset = some (readU16 bytes offset) := by
  rw [loadU16, readU16, readLittleEndianAt, readLittleEndian]
  split
  · rfl
  · rw [loadWord_eq (by omega)]

theorem loadSlot_eq (bytes : Bytes) (slotId : Nat) :
    loadSlot bytes slotId = some (readSlot bytes slotId) := by
  rw [loadSlot, readSlot]
  rw [loadU16_eq, loadU16_eq, loadU16_eq]
  rfl

theorem storeSlot_eq {bytes : Bytes} {slotId : Nat} (entry : SlotEntry)
    (h : slotId * 6 + 6 ≤ bytes.length) :
    storeSlot bytes slotId entry = writeSlot bytes slotId entry := by
  -- one 16-bit word, and a word written leaves the length, so the next one is inside too
  have hword : ∀ (value : Nat) {target : Bytes} {offset : Nat}, offset + 2 ≤ target.length →
      storeBytes (wordBytes 2 value) target offset = writeU16 target offset value := by
    intro value target offset hle
    have hin : offset + (wordBytes 2 value).length ≤ target.length := by
      rw [length_wordBytes]
      exact hle
    rw [storeBytes_eq hin]
    exact (store_of_le hin).symm
  have hlen : ∀ (value : Nat) {target after : Bytes} {offset : Nat},
      writeU16 target offset value = some after → after.length = target.length := by
    intro value target after offset hwrite
    rw [writeU16, writeLittleEndianAt, store] at hwrite
    split at hwrite
    · cases hwrite
      exact length_splice (by assumption)
    · cases hwrite
  unfold storeSlot writeSlot kSlotEntrySize
  dsimp only
  rw [hword entry.offset (by omega)]
  cases h1 : writeU16 bytes (slotId * 6) entry.offset with
  | none => rfl
  | some first =>
      have hfirst := hlen _ h1
      show (storeBytes (wordBytes 2 entry.size) first (slotId * 6 + 2) >>= _)
        = (writeU16 first (slotId * 6 + 2) entry.size >>= _)
      rw [hword entry.size (by omega)]
      cases h2 : writeU16 first (slotId * 6 + 2) entry.size with
      | none => rfl
      | some second =>
          have hsecond := hlen _ h2
          exact hword entry.flags (by omega)

theorem loadDeletedSlot_eq (page : Page) :
    loadDeletedSlot page.bytes (MattSql.slotCount page.header) 0
      = some (findDeletedSlot page) := by
  -- the loop looks at the slots from `index` on
  have key : ∀ remaining index, loadDeletedSlot page.bytes remaining index
      = some ((List.range' index remaining).find? fun i =>
          isDeleted (readSlot page.bytes i)) := by
    intro remaining
    induction remaining with
    | zero =>
        intro index
        rfl
    | succ remaining ih =>
        intro index
        rw [loadDeletedSlot, loadSlot_eq, List.range'_succ, List.find?_cons]
        show (if isDeleted (readSlot page.bytes index) then _ else _) = _
        cases isDeleted (readSlot page.bytes index) with
        | true => rfl
        | false => exact ih (index + 1)
  rw [key, findDeletedSlot, List.range_eq_range']

/-- **INSERT STAYS INSIDE THE PAYLOAD** of every page. -/
theorem Page.insertBytes_eq (page : Page) (record : Bytes) :
    page.insertBytes record = some (page.insert record) := by
  rw [Page.insertBytes]
  cases hvalid : validatePage page with
  | some st =>
      rw [Page.insert]
      rw [hvalid]
  | none =>
      have h := Page.validatePage_eq_none_iff.mp hvalid
      dsimp only
      -- the checks before any byte is touched are the same in both
      by_cases hbig : record.length > kMaxU16
      · rw [Page.insert]
        rw [hvalid, if_pos hbig]
        dsimp only
        rw [if_pos hbig]
      · rw [if_neg hbig, loadDeletedSlot_eq]
        by_cases hfit : page.Fits record
        · -- what the checks let through keeps the record and the slot entry inside
          have hbelow := h.target_below hfit
          have hrec : page.header.upper - record.length + record.length ≤ page.bytes.length := by
            have := h.bounded
            rw [Page.Fits] at hfit
            omega
          have hoff : toU16 (page.header.upper - record.length)
              = page.header.upper - record.length :=
            Nat.mod_eq_of_lt (by have := h.bounded; have := h.small; omega)
          have hcount : toU16 (MattSql.slotCount page.header) = MattSql.slotCount page.header :=
            Nat.mod_eq_of_lt
              (by have := h.lower_eq; have := h.ordered; have := h.bounded; have := h.small; omega)
          have htarget : (findDeletedSlot page).getD (toU16 (MattSql.slotCount page.header))
              = page.target := by
            rw [hcount, Page.target]
          have hroom : ¬ record.length
                + (if (findDeletedSlot page).isSome then 0 else kSlotEntrySize)
              > page.header.upper - page.header.lower := Nat.not_lt.mpr hfit
          have hslot : page.target * 6 + 6
              ≤ (splice page.bytes (page.header.upper - record.length) record).length := by
            rw [length_splice hrec]
            omega
          rw [Page.insert]
          rw [hvalid]
          dsimp only
          rw [if_neg hbig, if_neg hroom, htarget, hoff, store_of_le hrec]
          simp only [Option.bind_eq_bind, Option.bind_some]
          rw [if_neg hroom, storeBytes_eq hrec, Option.bind_some, htarget, storeSlot_eq _ hslot,
            writeSlot_of_le hslot]
          rfl
        · have hover : record.length
                + (if (findDeletedSlot page).isSome then 0 else kSlotEntrySize)
              > page.header.upper - page.header.lower := Nat.lt_of_not_le hfit
          rw [Page.insert]
          rw [hvalid]
          dsimp only
          rw [if_neg hbig, if_pos hover]
          show (if _ then _ else _) = _
          rw [if_pos hover]

/-- A slot that passes the bounds check ends inside the payload. -/
theorem validateSlotBounds_eq_none {page : Page} {entry : SlotEntry}
    (h : validateSlotBounds page entry = none) :
    page.header.upper ≤ entry.offset ∧ entry.offset + entry.size ≤ page.bytes.length := by
  rw [validateSlotBounds] at h
  split at h
  · cases h
  · split at h
    · cases h
    · omega

/-- **READ STAYS INSIDE THE PAYLOAD** of every page. -/
theorem Page.readBytes_eq (page : Page) (slotId : Nat) :
    page.readBytes slotId = some (page.read slotId) := by
  rw [Page.readBytes, Page.read]
  cases validatePage page with
  | some st => rfl
  | none =>
      dsimp only
      by_cases hslot : slotId ≥ MattSql.slotCount page.header
      · rw [if_pos hslot, if_pos hslot]
      · rw [if_neg hslot, if_neg hslot, loadSlot_eq]
        simp only [Option.bind_eq_bind, Option.bind_some]
        by_cases hdel : isDeleted (readSlot page.bytes slotId) = true
        · rw [if_pos hdel, if_pos hdel]
        · rw [if_neg hdel, if_neg hdel]
          cases hbounds : validateSlotBounds page (readSlot page.bytes slotId) with
          | some st => rfl
          | none =>
              obtain ⟨-, hend⟩ := validateSlotBounds_eq_none hbounds
              dsimp only
              rw [if_pos hend, loadBytes_eq hend]
              rfl

/-- **DELETE STAYS INSIDE THE PAYLOAD** of every page. -/
theorem Page.deleteBytes_eq (page : Page) (slotId : Nat) :
    page.deleteBytes slotId = some (page.delete slotId) := by
  rw [Page.deleteBytes, Page.delete]
  cases hvalid : validatePage page with
  | some st => rfl
  | none =>
      have h := Page.validatePage_eq_none_iff.mp hvalid
      have hlow := h.lower_eq
      have hord := h.ordered
      have hbound := h.bounded
      dsimp only
      by_cases hslot : slotId ≥ MattSql.slotCount page.header
      · rw [if_pos hslot, if_pos hslot]
      · rw [if_neg hslot, if_neg hslot, loadSlot_eq]
        simp only [Option.bind_eq_bind, Option.bind_some]
        by_cases hdel : isDeleted (readSlot page.bytes slotId) = true
        · rw [if_pos hdel, if_pos hdel]
        · rw [if_neg hdel, if_neg hdel]
          cases hbounds : validateSlotBounds page (readSlot page.bytes slotId) with
          | some st => rfl
          | none =>
              have hin : slotId * 6 + 6 ≤ page.bytes.length := by omega
              dsimp only
              rw [storeSlot_eq _ hin, writeSlot_of_le hin]
              rfl

/-! ## The frame rule -/

/-- A record was returned, or is known not to be there. -/
def Answered : Result RecordView → Prop
  | .ok _ => True
  | .error st => st.code = .notFound

/-- **FRAME RULE**: a slot whose entry is as before, on a page whose record area
    only grew downwards and is as before above the old frontier, reads as
    before. -/
theorem Page.read_frame {page page' : Page} (h : page.HeaderValid) (h' : page'.HeaderValid)
    (hid : page'.header.pageId = page.header.pageId)
    (hlen : page'.bytes.length = page.bytes.length)
    (hupper : page'.header.upper ≤ page.header.upper) {t : Nat}
    (hcount : t < MattSql.slotCount page'.header ↔ t < MattSql.slotCount page.header)
    (hslot : t < MattSql.slotCount page.header →
      readSlot page'.bytes t = readSlot page.bytes t)
    (hrecord : ∀ o n, page.header.upper ≤ o → slice page'.bytes o n = slice page.bytes o n)
    (hread : Answered (page.read t)) : page'.read t = page.read t := by
  revert hread
  unfold Page.read
  rw [Page.validatePage_eq_none_iff.mpr h, Page.validatePage_eq_none_iff.mpr h']
  dsimp only
  by_cases hlt : t < MattSql.slotCount page.header
  · rw [if_neg (Nat.not_le.mpr hlt), if_neg (Nat.not_le.mpr (hcount.mpr hlt)), hslot hlt]
    by_cases hdel : isDeleted (readSlot page.bytes t) = true
    · rw [if_pos hdel, if_pos hdel]
      exact fun _ => rfl
    · rw [if_neg hdel, if_neg hdel]
      cases hbounds : validateSlotBounds page (readSlot page.bytes t) with
      | some st =>
          -- a corrupt entry: nothing is promised for it
          intro hread
          rw [validateSlotBounds] at hbounds
          split at hbounds
          · cases hbounds
            cases hread
          · split at hbounds
            · cases hbounds
              cases hread
            · cases hbounds
      | none =>
          obtain ⟨hup, hend⟩ := validateSlotBounds_eq_none hbounds
          have hbounds' : validateSlotBounds page' (readSlot page.bytes t) = none := by
            rw [validateSlotBounds]
            rw [hlen, if_neg (by omega), if_neg (by omega)]
          intro _
          rw [hbounds']
          dsimp only
          rw [hlen, if_pos hend, if_pos hend, hid, hrecord _ _ hup]
  · rw [if_pos (Nat.not_lt.mp hlt), if_pos (Nat.not_lt.mp (fun h => hlt (hcount.mp h)))]
    exact fun _ => rfl

variable {page : Page} {record : Bytes} {s t : Nat}

/-- An insert into any page is refused, or is the insert of the page model into
    a page with a valid header. -/
theorem Page.insert_any (page : Page) (record : Bytes) :
    (∃ st, page.insert record = (.error st, page))
    ∨ page.HeaderValid ∧ page.Fits record
      ∧ page.insert record = (.ok page.target, page.inserted record) := by
  cases hvalid : validatePage page with
  | some st =>
      rw [Page.insert]
      rw [hvalid]
      exact Or.inl ⟨st, rfl⟩
  | none =>
      have h := Page.validatePage_eq_none_iff.mp hvalid
      by_cases hfit : page.Fits record
      · exact Or.inr ⟨h, hfit, Page.insert_fits h hfit⟩
      · obtain ⟨message, hfull⟩ := Page.insert_full h hfit
        exact Or.inl ⟨_, hfull⟩

/-- The same for a delete. -/
theorem Page.delete_any (page : Page) (s : Nat) :
    (∃ st, page.delete s = (.error st, page))
    ∨ page.HeaderValid ∧ page.Live s ∧ page.delete s = (.ok (), page.deleted s) := by
  cases hvalid : validatePage page with
  | some st =>
      rw [Page.delete]
      rw [hvalid]
      exact Or.inl ⟨st, rfl⟩
  | none =>
      have h := Page.validatePage_eq_none_iff.mp hvalid
      by_cases hlt : s < MattSql.slotCount page.header
      · cases hdel : isDeleted (readSlot page.bytes s) with
        | true =>
            rw [Page.delete]
            rw [hvalid]
            dsimp only
            rw [if_neg (Nat.not_le.mpr hlt), if_pos hdel]
            exact Or.inl ⟨_, rfl⟩
        | false =>
            -- a live slot can still point outside the record area
            cases hbounds : validateSlotBounds page (readSlot page.bytes s) with
            | some st =>
                rw [Page.delete]
                rw [hvalid]
                dsimp only
                rw [if_neg (Nat.not_le.mpr hlt), hdel, if_neg Bool.false_ne_true, hbounds]
                exact Or.inl ⟨st, rfl⟩
            | none => exact Or.inr ⟨h, ⟨hlt, hdel⟩, h.delete_eq ⟨hlt, hdel⟩ hbounds⟩
      · rw [Page.delete]
        rw [hvalid]
        dsimp only
        rw [if_pos (Nat.not_lt.mp hlt)]
        exact Or.inl ⟨_, rfl⟩

/-- The record that was inserted reads back, whatever else is on the page. -/
theorem Page.read_inserted (h : page.HeaderValid) (hfit : page.Fits record) :
    (page.inserted record).read page.target
      = .ok ⟨⟨page.header.pageId, page.target⟩, record⟩ := by
  obtain ⟨hlen, hself, -, hlive, hrec, -⟩ := Page.inserted_slots h hfit
  have hbound := h.bounded
  have hfit' := hfit
  rw [Page.Fits] at hfit'
  have htarget := (hlive page.target).mpr (Or.inl rfl)
  have hend : page.header.upper - record.length + record.length
      ≤ (page.inserted record).bytes.length := by
    rw [hlen]
    omega
  have hbounds : validateSlotBounds (page.inserted record)
      ⟨page.header.upper - record.length, record.length, 0⟩ = none := by
    rw [validateSlotBounds]
    rw [if_neg (by dsimp only; omega)]
    exact if_neg (Nat.lt_irrefl _)
  have hdel := htarget.2
  rw [hself] at hdel
  rw [Page.read]
  rw [Page.validatePage_eq_none_iff.mpr (Page.inserted_header h hfit)]
  dsimp only
  rw [if_neg (Nat.not_le.mpr htarget.1), hself, hdel, if_neg Bool.false_ne_true, hbounds]
  dsimp only
  rw [if_pos hend, hrec]
  rfl

/-- The other slots after an insert. -/
theorem Page.read_inserted_other (h : page.HeaderValid) (hfit : page.Fits record)
    (hne : t ≠ page.target) (hread : Answered (page.read t)) :
    (page.inserted record).read t = page.read t := by
  obtain ⟨hlen, -, -, -, -, habove⟩ := Page.inserted_slots h hfit
  have hcount := Page.inserted_slotCount h record
  have htarget := Page.target_le page
  refine Page.read_frame h (Page.inserted_header h hfit) rfl hlen (Nat.sub_le _ _) ?_
    (fun ht => Page.inserted_readSlot h hfit hne ht) habove hread
  rw [hcount]
  omega

/-- The other slots after a delete. -/
theorem Page.read_deleted_other (h : page.HeaderValid) (hlive : page.Live s) (hne : t ≠ s)
    (hread : Answered (page.read t)) : (page.deleted s).read t = page.read t := by
  obtain ⟨hlen, hkeep, -, habove⟩ := Page.deleted_slots h hlive
  exact Page.read_frame h (Page.deleted_header h hlive) rfl hlen (Nat.le_refl _) Iff.rfl
    (fun _ => hkeep t hne) habove hread

/-- What the operations do with a page, whatever its header and its bytes. -/
structure Page.CorruptionSafe (page : Page) : Prop where
  insert_inside : ∀ record, page.insertBytes record = some (page.insert record)
  read_inside : ∀ s, page.readBytes s = some (page.read s)
  delete_inside : ∀ s, page.deleteBytes s = some (page.delete s)
  /-- `FreeSpace` and `SlotCount` look at no byte, only at how many there are. -/
  counts_inside : ∀ bytes : Bytes, bytes.length = page.bytes.length →
    Page.freeSpace ⟨page.header, bytes⟩ = page.freeSpace
      ∧ Page.slotCount ⟨page.header, bytes⟩ = page.slotCount
  insert : ∀ record, (∃ st, page.insert record = (.error st, page))
    ∨ ∃ slot page', page.insert record = (.ok slot, page') ∧ validatePage page' = none
      ∧ page'.read slot = .ok ⟨⟨page.header.pageId, slot⟩, record⟩
      ∧ ∀ t, t ≠ slot → Answered (page.read t) → page'.read t = page.read t
  delete : ∀ s, (∃ st, page.delete s = (.error st, page))
    ∨ ∃ page', page.delete s = (.ok (), page') ∧ validatePage page' = none
      ∧ ∀ t, t ≠ s → Answered (page.read t) → page'.read t = page.read t

/-- **CORRUPT PAGES**: on every page, with any header and any bytes, the
    operations stay inside the payload; an insert or a delete fails and changes
    nothing, or leaves a page with a valid header on which every other slot
    that could be read, or was not there, reads as before and the inserted
    record reads back. -/
theorem slottedPage_corruption_safe (page : Page) : page.CorruptionSafe := by
  refine ⟨page.insertBytes_eq, page.readBytes_eq, page.deleteBytes_eq, ?_, ?_, ?_⟩
  · intro bytes hlen
    have hnil : bytes = [] ↔ page.bytes = [] := by
      rw [← List.length_eq_zero_iff, ← List.length_eq_zero_iff, hlen]
    have hvalidate : validatePage ⟨page.header, bytes⟩ = validatePage page := by
      unfold validatePage validateHeader
      simp only [hnil, hlen]
    rw [Page.freeSpace, Page.slotCount]
    rw [hvalidate]
    exact ⟨rfl, rfl⟩
  · intro record
    rcases page.insert_any record with hfail | ⟨h, hfit, heq⟩
    · exact Or.inl hfail
    · exact Or.inr ⟨page.target, page.inserted record, heq,
        Page.validatePage_eq_none_iff.mpr (Page.inserted_header h hfit), Page.read_inserted h hfit,
        fun t hne hread => Page.read_inserted_other h hfit hne hread⟩
  · intro s
    rcases page.delete_any s with hfail | ⟨h, hlive, heq⟩
    · exact Or.inl hfail
    · exact Or.inr ⟨page.deleted s, heq,
        Page.validatePage_eq_none_iff.mpr (Page.deleted_header h hlive),
        fun t hne hread => Page.read_deleted_other h hlive hne hread⟩

end MattSql
