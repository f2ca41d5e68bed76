import Mathlib.Logic.Function.Basic
import Mathlib.Data.Nat.Bitwise
import MattSql.ByteIoProofs
import MattSql.SchemaProofs
import MattSql.Library.RunProofs

/-! # Slotted pages

    `storage/page/slotted_page.cpp`: a directory of six-byte slots grows from
    the start of the payload, the records grow from its end, and the header
    keeps the two frontiers `lower` and `upper`.

    The model keeps the bytes: slots are read and written as little-endian
    words of the payload.  The 16-bit header fields are natural numbers, cut
    down where the source casts to `std::uint16_t`.

    A well-formed page (`Page.WellFormed`) is seen as a finite map from slot
    ids to records (`Page.lookup`).  Each operation has one specification
    lemma against that map; the run theorem replays the map from the calls and
    replies alone. -/

namespace MattSql

open ByteSpan LittleEndian

/-- `PageKind`. -/
inductive PageKind where
  | free
  | heap
  | bTreeInternal
  | bTreeLeaf
  | catalog
  | wal
  deriving DecidableEq

/-- `kInvalidLsn`. -/
def kInvalidLsn : Nat := 2 ^ 64 - 1

structure PageHeader where
  pageId : Nat := kInvalidPageId
  kind : PageKind := .free
  pageLsn : Nat := kInvalidLsn
  flags : Nat := 0
  lower : Nat := 0
  upper : Nat := 0
  deriving DecidableEq

/-- A page view: the header and the payload bytes. -/
structure Page where
  header : PageHeader
  bytes : Bytes
  deriving DecidableEq

structure RecordId where
  pageId : Nat
  slotId : Nat
  deriving DecidableEq

structure RecordView where
  id : RecordId
  bytes : Bytes
  deriving DecidableEq

structure SlotEntry where
  offset : Nat := 0
  size : Nat := 0
  flags : Nat := 0
  deriving DecidableEq

def kSlotEntrySize : Nat := 6

def kSlotDeleted : Nat := 1

/-- `std::numeric_limits<std::uint16_t>::max()`. -/
def kMaxU16 : Nat := 65535

/-- `static_cast<std::uint16_t>`. -/
def toU16 (n : Nat) : Nat := n % 65536

def readU16 (bytes : Bytes) (offset : Nat) : Nat :=
  readLittleEndianAt 2 bytes offset

def writeU16 (bytes : Bytes) (offset value : Nat) : Option Bytes :=
  writeLittleEndianAt 2 bytes offset value

def readSlot (bytes : Bytes) (slotId : Nat) : SlotEntry :=
  let offset := slotId * kSlotEntrySize
  ⟨readU16 bytes offset, readU16 bytes (offset + 2), readU16 bytes (offset + 4)⟩

def writeSlot (bytes : Bytes) (slotId : Nat) (entry : SlotEntry) : Option Bytes := do
  let offset := slotId * kSlotEntrySize
  let bytes ← writeU16 bytes offset entry.offset
  let bytes ← writeU16 bytes (offset + 2) entry.size
  writeU16 bytes (offset + 4) entry.flags

def isDeleted (entry : SlotEntry) : Bool :=
  entry.flags &&& kSlotDeleted ≠ 0

/-- `validate_header`: `none` is `ok_status()`. -/
def validateHeader (header : PageHeader) (bytes : Bytes) : Option Status :=
  if bytes = [] then some ⟨.invalidArgument, ascii "page bytes are required"⟩
  else if bytes.length > kMaxU16 then
    some ⟨.invalidArgument, ascii "slotted page is larger than 16-bit offsets support"⟩
  else if header.kind = .free then
    some ⟨.corruption, ascii "slotted page is not initialized"⟩
  else if header.lower > header.upper ∨ header.upper > bytes.length then
    some ⟨.corruption, ascii "slotted page free-space pointers are invalid"⟩
  else if header.lower % kSlotEntrySize ≠ 0 then
    some ⟨.corruption, ascii "slotted page lower pointer is not slot aligned"⟩
  else none

def validatePage (page : Page) : Option Status :=
  validateHeader page.header page.bytes

def slotCount (header : PageHeader) : Nat := header.lower / kSlotEntrySize

def validateSlotBounds (page : Page) (entry : SlotEntry) : Option Status :=
  if entry.offset > page.bytes.length
      ∨ entry.size > page.bytes.length - entry.offset then
    some ⟨.corruption, ascii "slot points outside the page payload"⟩
  else if entry.offset < page.header.upper then
    some ⟨.corruption, ascii "slot points below the record area"⟩
  else none

/-- `find_deleted_slot`: the first deleted slot of the directory.  A validated
    header has fewer than 65536 slots, so the cast to `SlotId` is exact. -/
def findDeletedSlot (page : Page) : Option Nat :=
  (List.range (slotCount page.header)).find? fun index =>
    isDeleted (readSlot page.bytes index)

/-- `DefaultSlottedPage::Initialize`. -/
def Page.initialize (page : Page) (kind : PageKind) : Result Unit × Page :=
  if page.bytes = [] then
    (errorResult .invalidArgument (ascii "page bytes are required"), page)
  else if page.bytes.length > kMaxU16 then
    (errorResult .invalidArgument
      (ascii "slotted page is larger than 16-bit offsets support"), page)
  else if kind = .free then
    (errorResult .invalidArgument (ascii "slotted page kind cannot be Free"), page)
  else
    (.ok (),
      { header := { page.header with
          kind := kind
          pageLsn := kInvalidLsn
          flags := 0
          lower := 0
          upper := toU16 page.bytes.length }
        bytes := List.replicate page.bytes.length 0 })

/-- `DefaultSlottedPage::Insert`. -/
def Page.insert (page : Page) (record : Bytes) : Result Nat × Page :=
  match validatePage page with
  | some st => (.error st, page)
  | none =>
    if record.length > kMaxU16 then
      (errorResult .invalidArgument
        (ascii "record is larger than 16-bit slots support"), page)
    else
      let deletedSlot := findDeletedSlot page
      let slotSpace := if deletedSlot.isSome then 0 else kSlotEntrySize
      if record.length + slotSpace > page.header.upper - page.header.lower then
        (errorResult .invalidArgument
          (ascii "not enough free space in slotted page"), page)
      else
        let recordOffset := toU16 (page.header.upper - record.length)
        let slotId := deletedSlot.getD (toU16 (slotCount page.header))
        let lower :=
          if deletedSlot.isSome then page.header.lower
          else toU16 (page.header.lower + kSlotEntrySize)
        -- the record copy, then the slot write; either may leave the payload
        match store page.bytes recordOffset record with
        | none => (errorResult .undefined (ascii "std::copy"), page)
        | some bytes =>
          match writeSlot bytes slotId ⟨recordOffset, toU16 record.length, 0⟩ with
          | none => (errorResult .undefined (ascii "write_slot"), page)
          | some bytes =>
            (.ok slotId,
              { header := { page.header with lower := lower, upper := recordOffset }
                bytes := bytes })

/-- `DefaultSlottedPage::Read`. -/
def Page.read (page : Page) (slotId : Nat) : Result RecordView :=
  match validatePage page with
  | some st => .error st
  | none =>
    if slotId ≥ slotCount page.header then
      errorResult .notFound (ascii "slot not found")
    else
      let entry := readSlot page.bytes slotId
      if isDeleted entry then errorResult .notFound (ascii "slot is deleted")
      else
        match validateSlotBounds page entry with
        | some st => .error st
        | none =>
          if entry.offset + entry.size ≤ page.bytes.length then
            .ok ⟨⟨page.header.pageId, slotId⟩,
              slice page.bytes entry.offset entry.size⟩
          else errorResult .undefined (ascii "record span")

/-- `DefaultSlottedPage::Delete`. -/
def Page.delete (page : Page) (slotId : Nat) : Result Unit × Page :=
  match validatePage page with
  | some st => (.error st, page)
  | none =>
    if slotId ≥ slotCount page.header then
      (errorResult .notFound (ascii "slot not found"), page)
    else
      let entry := readSlot page.bytes slotId
      if isDeleted entry then
        (errorResult .notFound (ascii "slot is deleted"), page)
      else
        match validateSlotBounds page entry with
        | some st => (.error st, page)
        | none =>
          match writeSlot page.bytes slotId
              { entry with flags := entry.flags ||| kSlotDeleted } with
          | none => (errorResult .undefined (ascii "write_slot"), page)
          | some bytes => (.ok (), { page with bytes := bytes })

/-- `DefaultSlottedPage::FreeSpace`. -/
def Page.freeSpace (page : Page) : Nat :=
  match validatePage page with
  | some _ => 0
  | none => page.header.upper - page.header.lower

/-- `DefaultSlottedPage::SlotCount`. -/
def Page.slotCount (page : Page) : Nat :=
  match validatePage page with
  | some _ => 0
  | none => MattSql.slotCount page.header

/-! ## Slots as spans of the payload -/

private theorem readSlot_eq (bytes : Bytes) (slotId : Nat) :
    readSlot bytes slotId
      = ⟨readU16 bytes (slotId * 6), readU16 bytes (slotId * 6 + 2),
          readU16 bytes (slotId * 6 + 4)⟩ := rfl

/-- The six bytes of a slot entry. -/
def entryBytes (entry : SlotEntry) : Bytes :=
  wordBytes 2 entry.offset ++ (wordBytes 2 entry.size ++ wordBytes 2 entry.flags)

private theorem length_entryBytes (entry : SlotEntry) :
    (entryBytes entry).length = 6 := by
  simp [entryBytes]

/-- A slot write inside the payload is one six-byte overwrite. -/
theorem writeSlot_of_le {bytes : Bytes} {slotId : Nat} {entry : SlotEntry}
    (h : slotId * 6 + 6 ≤ bytes.length) :
    writeSlot bytes slotId entry
      = some (splice bytes (slotId * 6) (entryBytes entry)) := by
  -- three words side by side: each stays inside, and they join to one span
  have h1 : slotId * 6 + (wordBytes 2 entry.offset).length ≤ bytes.length := by
    rw [length_wordBytes]
    omega
  have h2 : slotId * 6 + 2 + (wordBytes 2 entry.size).length
      ≤ (splice bytes (slotId * 6) (wordBytes 2 entry.offset)).length := by
    rw [length_splice h1, length_wordBytes]
    omega
  have h3 : slotId * 6 + 4 + (wordBytes 2 entry.flags).length
      ≤ (splice (splice bytes (slotId * 6) (wordBytes 2 entry.offset))
          (slotId * 6 + 2) (wordBytes 2 entry.size)).length := by
    rw [length_splice h2, length_splice h1, length_wordBytes]
    omega
  have e1 : splice (splice bytes (slotId * 6) (wordBytes 2 entry.offset))
        (slotId * 6 + 2) (wordBytes 2 entry.size)
      = splice bytes (slotId * 6) (wordBytes 2 entry.offset ++ wordBytes 2 entry.size) := by
    have := splice_splice_adjacent bytes (slotId * 6) (wordBytes 2 entry.offset)
      (wordBytes 2 entry.size) (by simp only [length_wordBytes]; omega)
    rw [length_wordBytes] at this
    exact this
  have e2 : splice
        (splice bytes (slotId * 6) (wordBytes 2 entry.offset ++ wordBytes 2 entry.size))
        (slotId * 6 + 4) (wordBytes 2 entry.flags)
      = splice bytes (slotId * 6) (entryBytes entry) := by
    have := splice_splice_adjacent bytes (slotId * 6)
      (wordBytes 2 entry.offset ++ wordBytes 2 entry.size) (wordBytes 2 entry.flags)
      (by simp only [length_wordBytes, List.length_append]; omega)
    rw [List.length_append, length_wordBytes, length_wordBytes, List.append_assoc] at this
    exact this
  have hoffset : writeU16 bytes (slotId * 6) entry.offset
      = some (splice bytes (slotId * 6) (wordBytes 2 entry.offset)) := store_of_le h1
  have hsize : writeU16 (splice bytes (slotId * 6) (wordBytes 2 entry.offset))
        (slotId * 6 + 2) entry.size
      = some (splice (splice bytes (slotId * 6) (wordBytes 2 entry.offset))
          (slotId * 6 + 2) (wordBytes 2 entry.size)) := store_of_le h2
  have hflags : writeU16 (splice (splice bytes (slotId * 6) (wordBytes 2 entry.offset))
        (slotId * 6 + 2) (wordBytes 2 entry.size)) (slotId * 6 + 4) entry.flags
      = some (splice bytes (slotId * 6) (entryBytes entry)) := by
    rw [← e2, ← e1]
    exact store_of_le h3
  show (writeU16 bytes (slotId * 6) entry.offset).bind (fun bytes =>
    (writeU16 bytes (slotId * 6 + 2) entry.size).bind fun bytes =>
      writeU16 bytes (slotId * 6 + 4) entry.flags) = _
  rw [hoffset, Option.bind_some, hsize, Option.bind_some, hflags]

/-- A word off the overwritten span reads as before. -/
theorem readU16_splice {bytes ys : Bytes} {off o : Nat}
    (h : off + ys.length ≤ bytes.length)
    (hd : o + 2 ≤ off ∨ off + ys.length ≤ o) :
    readU16 (splice bytes off ys) o = readU16 bytes o := by
  unfold readU16 readLittleEndianAt readLittleEndian
  rw [length_splice h, slice_splice_of_disjoint h hd]

/-- A slot off the overwritten span reads as before. -/
theorem readSlot_splice {bytes ys : Bytes} {off slotId : Nat}
    (h : off + ys.length ≤ bytes.length)
    (hd : slotId * 6 + 6 ≤ off ∨ off + ys.length ≤ slotId * 6) :
    readSlot (splice bytes off ys) slotId = readSlot bytes slotId := by
  rw [readSlot_eq, readSlot_eq, readU16_splice h (by omega), readU16_splice h (by omega),
    readU16_splice h (by omega)]

private theorem readU16_of_holds {bytes : Bytes} {off value : Nat}
    (h : Holds bytes off (wordBytes 2 value)) (hv : value < 65536) :
    readU16 bytes off = value := by
  have hr : readLittleEndian 2 bytes off = some (value, off + 2) :=
    (readLittleEndian_iff (by decide)).mpr ⟨hv, h, rfl⟩
  rw [readU16, readLittleEndianAt]
  rw [hr]

/-- The slot just written reads back. -/
theorem readSlot_splice_self {bytes : Bytes} {slotId : Nat} (entry : SlotEntry)
    (h : slotId * 6 + 6 ≤ bytes.length) (ho : entry.offset < 65536)
    (hs : entry.size < 65536) (hf : entry.flags < 65536) :
    readSlot (splice bytes (slotId * 6) (entryBytes entry)) slotId = entry := by
  have hh : Holds (splice bytes (slotId * 6) (entryBytes entry)) (slotId * 6)
      (entryBytes entry) :=
    slice_splice_self (by rw [length_entryBytes]; exact h)
  obtain ⟨hoff, hrest⟩ := holds_append.mp hh
  obtain ⟨hsize, hflags⟩ := holds_append.mp hrest
  rw [length_wordBytes] at hsize hflags
  rw [length_wordBytes, Nat.add_assoc] at hflags
  rw [readSlot_eq, readU16_of_holds hoff ho, readU16_of_holds hsize hs,
    readU16_of_holds hflags hf]

theorem readU16_lt (bytes : Bytes) (off : Nat) : readU16 bytes off < 65536 := by
  rw [readU16, readLittleEndianAt]
  cases h : readLittleEndian 2 bytes off with
  | none => exact Nat.zero_lt_succ _
  | some p =>
      obtain ⟨v, next⟩ := p
      exact ((readLittleEndian_iff (by decide)).mp h).1

/-- The payload after an insert: the record at `off`, its entry in slot `s`,
    every other slot and every record above as before. -/
theorem place_record (bytes record : Bytes) (off s : Nat)
    (hrec : off + record.length ≤ bytes.length) (hslot : s * 6 + 6 ≤ off)
    (hlen : bytes.length ≤ 65535) :
    let after := splice (splice bytes off record) (s * 6)
      (entryBytes ⟨off, record.length, 0⟩)
    after.length = bytes.length
    ∧ readSlot after s = ⟨off, record.length, 0⟩
    ∧ (∀ t, t ≠ s → t * 6 + 6 ≤ off → readSlot after t = readSlot bytes t)
    ∧ slice after off record.length = record
    ∧ (∀ o n, off + record.length ≤ o → slice after o n = slice bytes o n) := by
  intro after
  have hl1 := length_splice hrec
  -- the entry goes in front of the record: the two spans do not meet
  have hin : s * 6 + (entryBytes ⟨off, record.length, 0⟩).length
      ≤ (splice bytes off record).length := by
    rw [length_entryBytes, hl1]
    omega
  refine ⟨?_, ?_, ?_, ?_, ?_⟩
  · rw [length_splice hin, hl1]
  · refine readSlot_splice_self _ (by rw [hl1]; omega) ?_ ?_ (Nat.zero_lt_succ _)
    · show off < 65536
      omega
    · show record.length < 65536
      omega
  · intro t hne ht
    rw [readSlot_splice hin (by rw [length_entryBytes]; omega),
      readSlot_splice hrec (by omega)]
  · rw [slice_splice_of_disjoint hin (by rw [length_entryBytes]; omega),
      slice_splice_self hrec]
  · intro o n ho
    rw [slice_splice_of_disjoint hin (by rw [length_entryBytes]; omega),
      slice_splice_of_disjoint hrec (by omega)]

/-! ## Well-formed pages and the map they hold -/

/-- Slot `s` is in the directory and not deleted. -/
def Page.Live (page : Page) (s : Nat) : Prop :=
  s < MattSql.slotCount page.header ∧ isDeleted (readSlot page.bytes s) = false

instance (page : Page) (s : Nat) : Decidable (page.Live s) :=
  inferInstanceAs (Decidable (_ ∧ _))

/-- The pages that `Initialize` sets up and the operations keep. -/
structure Page.WellFormed (page : Page) : Prop where
  nonempty : page.bytes ≠ []
  small : page.bytes.length ≤ 65535
  kind : page.header.kind ≠ .free
  ordered : page.header.lower ≤ page.header.upper
  bounded : page.header.upper ≤ page.bytes.length
  aligned : page.header.lower % 6 = 0
  inside : ∀ s, page.Live s →
    page.header.upper ≤ (readSlot page.bytes s).offset ∧
    (readSlot page.bytes s).offset + (readSlot page.bytes s).size ≤ page.bytes.length
  apart : ∀ s t, page.Live s → page.Live t → s ≠ t →
    (readSlot page.bytes s).offset + (readSlot page.bytes s).size
        ≤ (readSlot page.bytes t).offset ∨
    (readSlot page.bytes t).offset + (readSlot page.bytes t).size
        ≤ (readSlot page.bytes s).offset

/-- The record bound to a slot id. -/
def Page.lookup (page : Page) (s : Nat) : Option Bytes :=
  if page.Live s then
    some (slice page.bytes (readSlot page.bytes s).offset (readSlot page.bytes s).size)
  else none

/-- The slot the next insert takes: the lowest deleted one, else a new one. -/
def Page.target (page : Page) : Nat :=
  (findDeletedSlot page).getD (MattSql.slotCount page.header)

/-- The directory space the next insert takes. -/
def Page.slotSpace (page : Page) : Nat :=
  if (findDeletedSlot page).isSome then 0 else 6

variable {page : Page} {s : Nat} {record : Bytes}

/-- The headers that `validate_header` lets through. -/
structure Page.HeaderValid (page : Page) : Prop where
  nonempty : page.bytes ≠ []
  small : page.bytes.length ≤ 65535
  kind : page.header.kind ≠ .free
  ordered : page.header.lower ≤ page.header.upper
  bounded : page.header.upper ≤ page.bytes.length
  aligned : page.header.lower % 6 = 0

theorem Page.validatePage_eq_none_iff : validatePage page = none ↔ page.HeaderValid := by
  rw [validatePage, validateHeader, kMaxU16, kSlotEntrySize]
  constructor
  · intro h
    split at h
    · cases h
    · split at h
      · cases h
      · split at h
        · cases h
        · split at h
          · cases h
          · split at h
            · cases h
            · exact ⟨by assumption, by omega, by assumption, by omega, by omega, by omega⟩
  · intro h
    have h1 := h.small
    have h2 := h.ordered
    have h3 := h.bounded
    rw [if_neg h.nonempty, if_neg (by omega), if_neg h.kind, if_neg (by omega),
      if_neg (by rw [h.aligned]; exact fun h => h rfl)]

theorem Page.WellFormed.header (h : page.WellFormed) : page.HeaderValid :=
  ⟨h.nonempty, h.small, h.kind, h.ordered, h.bounded, h.aligned⟩

theorem Page.WellFormed.validate (h : page.WellFormed) : validatePage page = none :=
  Page.validatePage_eq_none_iff.mpr h.header

/-- A bound slot passes the bounds check. -/
private theorem Page.WellFormed.validateSlotBounds (h : page.WellFormed)
    (hlive : page.Live s) :
    MattSql.validateSlotBounds page (readSlot page.bytes s) = none := by
  obtain ⟨hup, hend⟩ := h.inside s hlive
  rw [MattSql.validateSlotBounds]
  rw [if_neg (by omega), if_neg (by omega)]

theorem Page.lookup_isSome_iff : (page.lookup s).isSome ↔ page.Live s := by
  rw [Page.lookup]
  split <;> simp_all

theorem Page.lookup_eq_none_iff : page.lookup s = none ↔ ¬ page.Live s := by
  rw [← Page.lookup_isSome_iff, Option.not_isSome_iff_eq_none]

theorem Page.lookup_of_live (h : page.Live s) :
    page.lookup s = some (slice page.bytes (readSlot page.bytes s).offset
      (readSlot page.bytes s).size) := if_pos h

/-- The lower frontier is the end of the directory. -/
theorem Page.HeaderValid.lower_eq (h : page.HeaderValid) :
    page.header.lower = 6 * MattSql.slotCount page.header := by
  have := h.aligned
  rw [MattSql.slotCount, kSlotEntrySize]
  omega

theorem Page.WellFormed.lower_eq (h : page.WellFormed) :
    page.header.lower = 6 * MattSql.slotCount page.header := h.header.lower_eq

/-- The insert target is not bound. -/
theorem Page.target_not_live : ¬ page.Live page.target := by
  rw [Page.target]
  cases hf : findDeletedSlot page with
  | none => exact fun h => Nat.lt_irrefl _ h.1
  | some t =>
      have hdel := List.find?_some hf
      rintro ⟨-, hlive⟩
      rw [Option.getD_some] at hlive
      rw [hlive] at hdel
      exact nomatch hdel

/-- A found slot is in the directory, deleted, and the lowest such. -/
theorem findDeletedSlot_some {t : Nat} (h : findDeletedSlot page = some t) :
    t < MattSql.slotCount page.header ∧ isDeleted (readSlot page.bytes t) = true
      ∧ ∀ u < t, page.Live u := by
  rw [findDeletedSlot] at h
  rw [List.find?_range_eq_some] at h
  obtain ⟨hdel, hmem, hmin⟩ := h
  rw [List.mem_range] at hmem
  refine ⟨hmem, hdel, ?_⟩
  intro u hu
  refine ⟨by omega, ?_⟩
  have := hmin u hu
  simpa using this

theorem findDeletedSlot_none (h : findDeletedSlot page = none) :
    ∀ u < MattSql.slotCount page.header, page.Live u := by
  intro u hu
  rw [findDeletedSlot] at h
  have := List.find?_eq_none.mp h u (List.mem_range.mpr hu)
  exact ⟨hu, by simpa using this⟩


theorem Page.target_le (page : Page) : page.target ≤ MattSql.slotCount page.header := by
  rw [Page.target]
  cases hf : findDeletedSlot page with
  | none => exact Nat.le_refl _
  | some t => exact (findDeletedSlot_some hf).1.le

/-! ## Insert -/

/-- The page after an insert that fits. -/
def Page.inserted (page : Page) (record : Bytes) : Page :=
  let recordOffset := page.header.upper - record.length
  { header := { page.header with
      lower := page.header.lower + page.slotSpace
      upper := recordOffset }
    bytes := splice (splice page.bytes recordOffset record) (page.target * 6)
      (entryBytes ⟨recordOffset, record.length, 0⟩) }

/-- The record and its directory entry fit between the frontiers. -/
def Page.Fits (page : Page) (record : Bytes) : Prop :=
  record.length + page.slotSpace ≤ page.header.upper - page.header.lower

/-- The entry of the insert target ends below the new record. -/
theorem Page.HeaderValid.target_below (h : page.HeaderValid)
    (hfit : page.Fits record) :
    page.target * 6 + 6 ≤ page.header.upper - record.length := by
  have hlow := h.lower_eq
  rw [Page.Fits, Page.slotSpace] at hfit
  rw [Page.target]
  cases hf : findDeletedSlot page with
  | none =>
      rw [hf, Option.isSome_none] at hfit
      simp at hfit
      rw [Option.getD_none]
      omega
  | some t =>
      obtain ⟨hlt, -, -⟩ := findDeletedSlot_some hf
      have hord := h.ordered
      rw [Option.getD_some]
      omega

/-- The directory after an insert reaches just over the target. -/
theorem Page.inserted_slotCount (h : page.HeaderValid) (record : Bytes) :
    MattSql.slotCount (page.inserted record).header
      = max (MattSql.slotCount page.header) (page.target + 1) := by
  have hlow := h.lower_eq
  show (page.header.lower + page.slotSpace) / 6 = _
  rw [Page.slotSpace, Page.target]
  cases hf : findDeletedSlot page with
  | none =>
      rw [Option.isSome_none, Option.getD_none, if_neg (by decide)]
      omega
  | some t =>
      obtain ⟨hlt, -, -⟩ := findDeletedSlot_some hf
      rw [Option.isSome_some, Option.getD_some, if_pos rfl]
      omega

/-- An insert that fits takes the target slot. -/
theorem Page.insert_fits (h : page.HeaderValid) (hfit : page.Fits record) :
    page.insert record = (.ok page.target, page.inserted record) := by
  have hbelow := h.target_below hfit
  have hsmall := h.small
  have hbound := h.bounded
  have hlow := h.lower_eq
  have hrec : page.header.upper - record.length + record.length ≤ page.bytes.length := by
    rw [Page.Fits] at hfit
    omega
  -- no number wraps: the page has at most 65535 bytes
  have hoff : toU16 (page.header.upper - record.length)
      = page.header.upper - record.length := Nat.mod_eq_of_lt (by omega)
  have hsize : toU16 record.length = record.length := Nat.mod_eq_of_lt (by omega)
  have hcount : toU16 (MattSql.slotCount page.header) = MattSql.slotCount page.header :=
    Nat.mod_eq_of_lt (by have := h.ordered; omega)
  have hlower : (if (findDeletedSlot page).isSome then page.header.lower
        else toU16 (page.header.lower + kSlotEntrySize))
      = page.header.lower + page.slotSpace := by
    rw [Page.slotSpace]
    split
    · rfl
    · rename_i hnone
      have hnone' : findDeletedSlot page = none := by simpa using hnone
      have htarget : page.target = MattSql.slotCount page.header := by
        rw [Page.target, hnone', Option.getD_none]
      rw [htarget] at hbelow
      exact Nat.mod_eq_of_lt (by show page.header.lower + 6 < _; omega)
  have htarget : (findDeletedSlot page).getD (toU16 (MattSql.slotCount page.header))
      = page.target := by
    rw [hcount, Page.target]
  have hfit' : ¬ record.length + (if (findDeletedSlot page).isSome then 0 else kSlotEntrySize)
      > page.header.upper - page.header.lower := Nat.not_lt.mpr hfit
  rw [Page.insert]
  rw [Page.validatePage_eq_none_iff.mpr h]
  dsimp only
  rw [if_neg (by unfold kMaxU16; omega), if_neg hfit', hlower, htarget, hoff, hsize,
    store_of_le hrec]
  dsimp only
  rw [writeSlot_of_le (by rw [length_splice hrec]; omega)]
  rfl

/-- An insert that does not fit is refused and changes nothing. -/
theorem Page.insert_full (h : page.HeaderValid) (hfull : ¬ page.Fits record) :
    ∃ message, page.insert record = (errorResult .invalidArgument message, page) := by
  have hover : record.length + (if (findDeletedSlot page).isSome then 0 else kSlotEntrySize)
      > page.header.upper - page.header.lower := Nat.lt_of_not_le hfull
  rw [Page.insert]
  rw [Page.validatePage_eq_none_iff.mpr h]
  dsimp only
  by_cases hbig : record.length > kMaxU16
  · rw [if_pos hbig]
    exact ⟨_, rfl⟩
  · rw [if_neg hbig, if_pos hover]
    exact ⟨_, rfl⟩

/-- An insert leaves every other entry of the directory alone, bound or not. -/
theorem Page.inserted_readSlot (h : page.HeaderValid) (hfit : page.Fits record) {t : Nat}
    (hne : t ≠ page.target) (ht : t < MattSql.slotCount page.header) :
    readSlot (page.inserted record).bytes t = readSlot page.bytes t := by
  have hbelow := h.target_below hfit
  have hlow := h.lower_eq
  have hfit' := hfit
  rw [Page.Fits] at hfit'
  obtain ⟨-, -, hother, -, -⟩ :=
    place_record page.bytes record (page.header.upper - record.length) page.target
      (by have := h.bounded; have := h.ordered; omega) hbelow h.small
  exact hother t hne (by have := h.ordered; omega)

/-- The slots of the page after an insert: the target holds the new record,
    every bound slot is as before, and nothing else is bound. -/
theorem Page.inserted_slots (h : page.HeaderValid) (hfit : page.Fits record) :
    (page.inserted record).bytes.length = page.bytes.length
    ∧ readSlot (page.inserted record).bytes page.target
        = ⟨page.header.upper - record.length, record.length, 0⟩
    ∧ (∀ t, page.Live t →
        readSlot (page.inserted record).bytes t = readSlot page.bytes t)
    ∧ (∀ t, (page.inserted record).Live t ↔ t = page.target ∨ page.Live t)
    ∧ slice (page.inserted record).bytes (page.header.upper - record.length)
        record.length = record
    ∧ (∀ o n, page.header.upper ≤ o →
        slice (page.inserted record).bytes o n = slice page.bytes o n) := by
  have hbelow := h.target_below hfit
  have hlow := h.lower_eq
  have hcount := Page.inserted_slotCount h record
  have hord := h.ordered
  have htarget := Page.target_le page
  have hfit' := hfit
  rw [Page.Fits] at hfit'
  obtain ⟨hlen, hself, -, hrec, habove⟩ :=
    place_record page.bytes record (page.header.upper - record.length) page.target
      (by have := h.bounded; omega) hbelow h.small
  -- the record goes below `upper`, the entry to the target slot: nothing else moves
  have hkeep : ∀ t, t ≠ page.target → t < MattSql.slotCount page.header →
      readSlot (page.inserted record).bytes t = readSlot page.bytes t :=
    fun t hne ht => Page.inserted_readSlot h hfit hne ht
  refine ⟨hlen, hself, ?_, ?_, hrec, fun o n ho => habove o n (by omega)⟩
  · intro t ht
    refine hkeep t ?_ ht.1
    rintro rfl
    exact Page.target_not_live ht
  · intro t
    by_cases hne : t = page.target
    · subst hne
      refine ⟨fun _ => Or.inl rfl, fun _ => ⟨by omega, ?_⟩⟩
      show isDeleted (readSlot (page.inserted record).bytes page.target) = false
      rw [show readSlot (page.inserted record).bytes page.target = _ from hself]
      simp [isDeleted]
    · constructor
      · rintro ⟨hlt, hdel⟩
        have hlt' : t < MattSql.slotCount page.header := by omega
        rw [hkeep t hne hlt'] at hdel
        exact Or.inr ⟨hlt', hdel⟩
      · rintro (h | ⟨hlt, hdel⟩)
        · exact absurd h hne
        · refine ⟨by omega, ?_⟩
          rw [hkeep t hne hlt]
          exact hdel

theorem Page.inserted_length (h : page.HeaderValid) (hfit : page.Fits record) :
    (page.inserted record).bytes.length = page.bytes.length :=
  (Page.inserted_slots h hfit).1

/-- The header after an insert is valid. -/
theorem Page.inserted_header (h : page.HeaderValid) (hfit : page.Fits record) :
    (page.inserted record).HeaderValid := by
  have hlen := Page.inserted_length h hfit
  have hlow := h.lower_eq
  have hord := h.ordered
  have hbound := h.bounded
  have hfit' := hfit
  rw [Page.Fits] at hfit'
  refine ⟨?_, ?_, h.kind, ?_, ?_, ?_⟩
  · intro hnil
    rw [hnil] at hlen
    exact h.nonempty (List.length_eq_zero_iff.mp hlen.symm)
  · rw [hlen]
    exact h.small
  · show page.header.lower + page.slotSpace ≤ page.header.upper - record.length
    omega
  · rw [hlen]
    show page.header.upper - record.length ≤ _
    omega
  · show (page.header.lower + page.slotSpace) % 6 = 0
    rw [Page.slotSpace]
    split <;> omega

/-- The page after an insert is well formed. -/
theorem Page.inserted_wellFormed (h : page.WellFormed) (hfit : page.Fits record) :
    (page.inserted record).WellFormed := by
  obtain ⟨hlen, hself, hkeep, hlive, -, -⟩ := Page.inserted_slots h.header hfit
  have hbelow := h.header.target_below hfit
  have hbound := h.bounded
  have hlow := h.lower_eq
  have hfit' := hfit
  rw [Page.Fits] at hfit'
  -- a slot of the new page is the target or an old one above the new record
  have hinside : ∀ t, (page.inserted record).Live t →
      (t = page.target
        ∧ readSlot (page.inserted record).bytes t
          = ⟨page.header.upper - record.length, record.length, 0⟩)
      ∨ (page.Live t
        ∧ readSlot (page.inserted record).bytes t = readSlot page.bytes t) := by
    intro t ht
    rcases (hlive t).mp ht with rfl | hold
    · exact Or.inl ⟨rfl, hself⟩
    · exact Or.inr ⟨hold, hkeep t hold⟩
  have hheader := Page.inserted_header h.header hfit
  refine ⟨hheader.nonempty, hheader.small, h.kind, hheader.ordered, hheader.bounded,
    hheader.aligned, ?_, ?_⟩
  · intro t ht
    rw [hlen]
    show page.header.upper - record.length ≤ _ ∧ _
    rcases hinside t ht with ⟨-, heq⟩ | ⟨hold, heq⟩
    · rw [heq]
      dsimp only
      omega
    · have := h.inside t hold
      rw [heq]
      omega
  · intro t u ht hu hne
    rcases hinside t ht with ⟨rfl, heq⟩ | ⟨hold, heq⟩
    · rcases hinside u hu with ⟨rfl, -⟩ | ⟨hold', heq'⟩
      · exact absurd rfl hne
      · have := h.inside u hold'
        rw [heq, heq']
        dsimp only
        omega
    · rcases hinside u hu with ⟨rfl, heq'⟩ | ⟨hold', heq'⟩
      · have := h.inside t hold
        rw [heq, heq']
        dsimp only
        omega
      · rw [heq, heq']
        exact h.apart t u hold hold' hne

/-- An insert binds the target and changes no other binding. -/
theorem Page.inserted_lookup (h : page.WellFormed) (hfit : page.Fits record) :
    (page.inserted record).lookup
      = Function.update page.lookup page.target (some record) := by
  obtain ⟨-, hself, hkeep, hlive, hrec, habove⟩ := Page.inserted_slots h.header hfit
  funext t
  by_cases hne : t = page.target
  · subst hne
    rw [Function.update_self, Page.lookup_of_live ((hlive _).mpr (Or.inl rfl)), hself, hrec]
  · rw [Function.update_of_ne hne]
    by_cases hold : page.Live t
    · rw [Page.lookup_of_live ((hlive t).mpr (Or.inr hold)), Page.lookup_of_live hold,
        hkeep t hold, habove _ _ (h.inside t hold).1]
    · rw [Page.lookup_eq_none_iff.mpr hold, Page.lookup_eq_none_iff, hlive]
      exact not_or.mpr ⟨hne, hold⟩

/-! ## Read and delete -/

/-- `Read` answers exactly from the map. -/
theorem Page.read_eq (h : page.WellFormed) (s : Nat) :
    (∀ record, page.lookup s = some record →
      page.read s = .ok ⟨⟨page.header.pageId, s⟩, record⟩)
    ∧ (page.lookup s = none →
        ∃ message, page.read s = errorResult .notFound message) := by
  rw [Page.read]
  rw [h.validate]
  dsimp only
  constructor
  · intro record hrec
    have hlive : page.Live s := Page.lookup_isSome_iff.mp (by rw [hrec]; rfl)
    obtain ⟨hup, hend⟩ := h.inside s hlive
    rw [Page.lookup_of_live hlive, Option.some.injEq] at hrec
    rw [if_neg (Nat.not_le.mpr hlive.1), hlive.2, if_neg Bool.false_ne_true,
      h.validateSlotBounds hlive]
    dsimp only
    rw [if_pos hend, hrec]
  · intro hnone
    rw [Page.lookup_eq_none_iff] at hnone
    by_cases hlt : s ≥ MattSql.slotCount page.header
    · rw [if_pos hlt]
      exact ⟨_, rfl⟩
    · have hdel : isDeleted (readSlot page.bytes s) = true := by
        by_contra hd
        exact hnone ⟨Nat.lt_of_not_le hlt, by simpa using hd⟩
      rw [if_neg hlt, if_pos hdel]
      exact ⟨_, rfl⟩

/-- The page after the deletion of a bound slot. -/
def Page.deleted (page : Page) (s : Nat) : Page :=
  let entry := readSlot page.bytes s
  { page with
    bytes := splice page.bytes (s * 6)
      (entryBytes { entry with flags := entry.flags ||| kSlotDeleted }) }

private theorem isDeleted_or (entry : SlotEntry) :
    isDeleted { entry with flags := entry.flags ||| kSlotDeleted } = true := by
  have hbit : (entry.flags ||| 1) &&& 1 = 1 := by
    rw [Nat.and_one_is_mod, Nat.or_mod_two_eq_one]
    exact Or.inr rfl
  show decide ((entry.flags ||| 1) &&& 1 ≠ 0) = true
  rw [hbit]
  rfl

/-- Deleting a slot that passes the checks writes its tombstone. -/
theorem Page.HeaderValid.delete_eq (h : page.HeaderValid) (hlive : page.Live s)
    (hbounds : MattSql.validateSlotBounds page (readSlot page.bytes s) = none) :
    page.delete s = (.ok (), page.deleted s) := by
  have hlow := h.lower_eq
  have hlt := hlive.1
  have hord := h.ordered
  have hbound := h.bounded
  rw [Page.delete]
  rw [Page.validatePage_eq_none_iff.mpr h]
  dsimp only
  rw [if_neg (Nat.not_le.mpr hlive.1), hlive.2, if_neg Bool.false_ne_true, hbounds]
  dsimp only
  rw [writeSlot_of_le (by omega)]
  rfl

/-- Deleting a bound slot writes its tombstone. -/
theorem Page.delete_live (h : page.WellFormed) (hlive : page.Live s) :
    page.delete s = (.ok (), page.deleted s) :=
  h.header.delete_eq hlive (h.validateSlotBounds hlive)

/-- Deleting an unbound slot is refused and changes nothing. -/
theorem Page.delete_dead (h : page.WellFormed) (hdead : ¬ page.Live s) :
    ∃ message, page.delete s = (errorResult .notFound message, page) := by
  rw [Page.delete]
  rw [h.validate]
  dsimp only
  by_cases hlt : s ≥ MattSql.slotCount page.header
  · rw [if_pos hlt]
    exact ⟨_, rfl⟩
  · have hdel : isDeleted (readSlot page.bytes s) = true := by
      by_contra hd
      exact hdead ⟨Nat.lt_of_not_le hlt, by simpa using hd⟩
    rw [if_neg hlt, if_pos hdel]
    exact ⟨_, rfl⟩

/-- The slots of the page after a deletion: all as before but the deleted
    one, which is a tombstone now. -/
theorem Page.deleted_slots (h : page.HeaderValid) (hlive : page.Live s) :
    (page.deleted s).bytes.length = page.bytes.length
    ∧ (∀ t, t ≠ s → readSlot (page.deleted s).bytes t = readSlot page.bytes t)
    ∧ (∀ t, (page.deleted s).Live t ↔ t ≠ s ∧ page.Live t)
    ∧ (∀ o n, page.header.upper ≤ o →
        slice (page.deleted s).bytes o n = slice page.bytes o n) := by
  have hlow := h.lower_eq
  have hlt := hlive.1
  have hord := h.ordered
  have hbound := h.bounded
  have hin : s * 6 + 6 ≤ page.bytes.length := by omega
  -- only the flag of the slot changes, and it stays a 16-bit number
  have hflags : (readSlot page.bytes s).flags ||| kSlotDeleted < 2 ^ 16 :=
    Nat.or_lt_two_pow (readU16_lt _ _) (by decide)
  have hself := readSlot_splice_self
    { readSlot page.bytes s with flags := (readSlot page.bytes s).flags ||| kSlotDeleted }
    hin (readU16_lt _ _) (readU16_lt _ _) hflags
  have hkeep : ∀ t, t ≠ s → readSlot (page.deleted s).bytes t = readSlot page.bytes t :=
    fun t hne => readSlot_splice (by rw [length_entryBytes]; exact hin)
      (by rw [length_entryBytes]; omega)
  refine ⟨length_splice (by rw [length_entryBytes]; exact hin), hkeep, ?_, ?_⟩
  · intro t
    by_cases hne : t = s
    · subst hne
      refine ⟨fun ht => ?_, fun ht => absurd rfl ht.1⟩
      have hdel : isDeleted (readSlot (page.deleted t).bytes t) = false := ht.2
      rw [show readSlot (page.deleted t).bytes t = _ from hself, isDeleted_or] at hdel
      exact nomatch hdel
    · rw [Page.Live]
      rw [hkeep t hne]
      exact ⟨fun ht => ⟨hne, ht⟩, fun ht => ht.2⟩
  · intro o n ho
    exact slice_splice_of_disjoint (by rw [length_entryBytes]; exact hin)
      (by rw [length_entryBytes]; omega)

theorem Page.deleted_length (h : page.HeaderValid) (hlive : page.Live s) :
    (page.deleted s).bytes.length = page.bytes.length :=
  (Page.deleted_slots h hlive).1

/-- The header after a deletion is valid. -/
theorem Page.deleted_header (h : page.HeaderValid) (hlive : page.Live s) :
    (page.deleted s).HeaderValid := by
  have hlen := Page.deleted_length h hlive
  refine ⟨?_, ?_, h.kind, h.ordered, ?_, h.aligned⟩
  · intro hnil
    rw [hnil] at hlen
    exact h.nonempty (List.length_eq_zero_iff.mp hlen.symm)
  · rw [hlen]
    exact h.small
  · rw [hlen]
    exact h.bounded

/-- The page after a deletion is well formed. -/
theorem Page.deleted_wellFormed (h : page.WellFormed) (hlive : page.Live s) :
    (page.deleted s).WellFormed := by
  obtain ⟨hlen, hkeep, hslots, -⟩ := Page.deleted_slots h.header hlive
  have hheader := Page.deleted_header h.header hlive
  refine ⟨hheader.nonempty, hheader.small, h.kind, h.ordered, hheader.bounded, h.aligned, ?_, ?_⟩
  · intro t ht
    obtain ⟨hne, hold⟩ := (hslots t).mp ht
    rw [hlen, hkeep t hne]
    exact h.inside t hold
  · intro t u ht hu hne
    obtain ⟨hnt, hold⟩ := (hslots t).mp ht
    obtain ⟨hnu, hold'⟩ := (hslots u).mp hu
    rw [hkeep t hnt, hkeep u hnu]
    exact h.apart t u hold hold' hne

/-- A deletion unbinds its slot and changes no other binding. -/
theorem Page.deleted_lookup (h : page.WellFormed) (hlive : page.Live s) :
    (page.deleted s).lookup = Function.update page.lookup s none := by
  obtain ⟨-, hkeep, hslots, habove⟩ := Page.deleted_slots h.header hlive
  funext t
  by_cases hne : t = s
  · subst hne
    rw [Function.update_self, Page.lookup_eq_none_iff, hslots]
    exact fun ht => ht.1 rfl
  · rw [Function.update_of_ne hne]
    by_cases hold : page.Live t
    · rw [Page.lookup_of_live ((hslots t).mpr ⟨hne, hold⟩), Page.lookup_of_live hold,
        hkeep t hne, habove _ _ (h.inside t hold).1]
    · rw [Page.lookup_eq_none_iff.mpr hold, Page.lookup_eq_none_iff, hslots]
      exact fun ht => hold ht.2

/-! ## Whole histories of a page -/

/-- `Initialize` on a payload of a supported size gives an empty page. -/
theorem Page.initialize_ok {kind : PageKind} (hne : page.bytes ≠ [])
    (hsmall : page.bytes.length ≤ 65535) (hk : kind ≠ .free) :
    ∃ fresh, page.initialize kind = (.ok (), fresh)
      ∧ fresh.WellFormed ∧ (∀ t, fresh.lookup t = none)
      ∧ fresh.bytes.length = page.bytes.length
      ∧ fresh.header.pageId = page.header.pageId
      ∧ fresh.header.lower = 0 ∧ fresh.header.upper = page.bytes.length := by
  have hupper : toU16 page.bytes.length = page.bytes.length := Nat.mod_eq_of_lt (by omega)
  unfold Page.initialize
  rw [if_neg hne, if_neg (by unfold kMaxU16; omega), if_neg hk, hupper]
  have hdead : ∀ t, ¬ Page.Live
      { header := { page.header with
          kind := kind
          pageLsn := kInvalidLsn
          flags := 0
          lower := 0
          upper := page.bytes.length }
        bytes := List.replicate page.bytes.length 0 } t :=
    fun t ht => absurd ht.1 (by simp [MattSql.slotCount])
  refine ⟨_, rfl, ⟨?_, ?_, hk, Nat.zero_le _, ?_, rfl, fun t ht => absurd ht (hdead t),
    fun t _ ht => absurd ht (hdead t)⟩,
    fun t => Page.lookup_eq_none_iff.mpr (hdead t), List.length_replicate, rfl, rfl, rfl⟩
  · intro hnil
    have := congrArg List.length hnil
    rw [List.length_replicate] at this
    exact hne (List.length_eq_zero_iff.mp this)
  · rw [List.length_replicate]
    exact hsmall
  · rw [List.length_replicate]

/-- The calls a page user makes. -/
inductive PageCall where
  | insert (record : Bytes)
  | delete (slotId : Nat)
  | read (slotId : Nat)

inductive PageReply where
  | inserted (reply : Result Nat)
  | deleted (reply : Result Unit)
  | record (reply : Result RecordView)

def pageStep (page : Page) : PageCall → PageReply × Page
  | .insert record => (.inserted (page.insert record).1, (page.insert record).2)
  | .delete slotId => (.deleted (page.delete slotId).1, (page.delete slotId).2)
  | .read slotId => (.record (page.read slotId), page)

/-- The map the user expects, replayed from the calls and their replies: a
    successful insert binds the returned slot to the given bytes, a successful
    delete unbinds the given slot, and nothing else changes a binding. -/
def trackPage (bound : Nat → Option Bytes) : PageCall × PageReply → Nat → Option Bytes
  | (.insert record, .inserted (.ok slotId)) => Function.update bound slotId (some record)
  | (.delete slotId, .deleted (.ok _)) => Function.update bound slotId none
  | _ => bound

/-- A page of the given size that holds exactly the given bindings. -/
def Page.Represents (size : Nat) (page : Page) (bound : Nat → Option Bytes) : Prop :=
  page.WellFormed ∧ page.bytes.length = size ∧ page.lookup = bound

/-- One call keeps page and expected map together. -/
theorem pageStep_represents {size : Nat} (page : Page) (bound : Nat → Option Bytes)
    (call : PageCall) (h : page.Represents size bound) :
    (pageStep page call).2.Represents size
      (trackPage bound (call, (pageStep page call).1)) := by
  obtain ⟨hwf, hlen, rfl⟩ := h
  cases call with
  | insert record =>
      by_cases hfit : page.Fits record
      · rw [pageStep, Page.insert_fits hwf.header hfit]
        exact ⟨Page.inserted_wellFormed hwf hfit, (Page.inserted_length hwf.header hfit).trans hlen,
          Page.inserted_lookup hwf hfit⟩
      · obtain ⟨message, hfull⟩ := Page.insert_full hwf.header hfit
        rw [pageStep, hfull]
        exact ⟨hwf, hlen, rfl⟩
  | delete slotId =>
      by_cases hlive : page.Live slotId
      · rw [pageStep, Page.delete_live hwf hlive]
        exact ⟨Page.deleted_wellFormed hwf hlive, (Page.deleted_length hwf.header hlive).trans hlen,
          Page.deleted_lookup hwf hlive⟩
      · obtain ⟨message, hdead⟩ := Page.delete_dead hwf hlive
        rw [pageStep, hdead]
        exact ⟨hwf, hlen, rfl⟩
  | read slotId => exact ⟨hwf, hlen, rfl⟩

/-- What a page that stands for the map `bound` answers to the next call, and
    where it keeps the records. -/
structure Page.Serves (page : Page) (bound : Nat → Option Bytes) : Prop where
  read_bound : ∀ s record, bound s = some record →
    page.read s = .ok ⟨⟨page.header.pageId, s⟩, record⟩
  read_unbound : ∀ s, bound s = none →
    ∃ message, page.read s = errorResult .notFound message
  delete_bound : ∀ s, bound s ≠ none → (page.delete s).1 = .ok ()
  delete_unbound : ∀ s, bound s = none →
    ∃ message, page.delete s = (errorResult .notFound message, page)
  /-- With a deleted slot to reuse, the record alone has to fit. -/
  insert_reusing : ∀ record, (∃ t < page.slotCount, bound t = none) →
    ((∃ s, (page.insert record).1 = .ok s)
      ↔ record.length ≤ page.header.upper - page.header.lower)
  /-- Without one, a directory entry has to fit as well. -/
  insert_growing : ∀ record, (¬ ∃ t < page.slotCount, bound t = none) →
    ((∃ s, (page.insert record).1 = .ok s)
      ↔ record.length + 6 ≤ page.header.upper - page.header.lower)
  /-- The slot taken is unbound, and it is the lowest deleted one or, with
      none deleted, the slot count. -/
  insert_slot : ∀ record s, (page.insert record).1 = .ok s →
    bound s = none ∧ s ≤ page.slotCount ∧ ∀ t < s, bound t ≠ none
  insert_failed : ∀ record st, (page.insert record).1 = .error st →
    (page.insert record).2 = page
  frontier : page.header.lower = 6 * page.slotCount
    ∧ page.header.lower ≤ page.header.upper
  inside : ∀ s, bound s ≠ none → s < page.slotCount
    ∧ page.header.upper ≤ (readSlot page.bytes s).offset
    ∧ (readSlot page.bytes s).offset + (readSlot page.bytes s).size ≤ page.bytes.length
  apart : ∀ s t, bound s ≠ none → bound t ≠ none → s ≠ t →
    (readSlot page.bytes s).offset + (readSlot page.bytes s).size
        ≤ (readSlot page.bytes t).offset ∨
    (readSlot page.bytes t).offset + (readSlot page.bytes t).size
        ≤ (readSlot page.bytes s).offset

theorem Page.WellFormed.slotCount_eq (h : page.WellFormed) :
    page.slotCount = MattSql.slotCount page.header := by
  rw [Page.slotCount]
  rw [h.validate]

/-- An insert succeeds exactly when it fits. -/
theorem Page.insert_ok_iff (h : page.WellFormed) {t : Nat} :
    (page.insert record).1 = .ok t ↔ page.Fits record ∧ t = page.target := by
  by_cases hfit : page.Fits record
  · rw [Page.insert_fits h.header hfit]
    constructor
    · intro ht
      cases ht
      exact ⟨hfit, rfl⟩
    · rintro ⟨-, rfl⟩
      rfl
  · obtain ⟨message, hfull⟩ := Page.insert_full h.header hfit
    rw [hfull]
    exact ⟨nofun, fun ht => absurd ht.1 hfit⟩

/-- The directory has a deleted slot exactly when the search finds one. -/
private theorem Page.findDeletedSlot_isSome_iff :
    (findDeletedSlot page).isSome
      ↔ ∃ t < MattSql.slotCount page.header, page.lookup t = none := by
  constructor
  · intro hs
    obtain ⟨t, hf⟩ := Option.isSome_iff_exists.mp hs
    obtain ⟨hlt, hdel, -⟩ := findDeletedSlot_some hf
    refine ⟨t, hlt, Page.lookup_eq_none_iff.mpr ?_⟩
    rintro ⟨-, hlive⟩
    rw [hdel] at hlive
    exact nomatch hlive
  · rintro ⟨t, hlt, hnone⟩
    cases hf : findDeletedSlot page with
    | none => exact absurd (findDeletedSlot_none hf t hlt) (Page.lookup_eq_none_iff.mp hnone)
    | some u => rfl

/-- Every slot below the insert target is bound. -/
theorem Page.live_below_target : ∀ t < page.target, page.Live t := by
  rw [Page.target]
  cases hf : findDeletedSlot page with
  | none => exact findDeletedSlot_none hf
  | some u => exact (findDeletedSlot_some hf).2.2

/-- A well-formed page serves the map it holds. -/
theorem Page.WellFormed.serves (h : page.WellFormed) : page.Serves page.lookup := by
  have hlive : ∀ t, page.lookup t ≠ none ↔ page.Live t := fun t => by
    rw [Ne, Page.lookup_eq_none_iff, not_not]
  refine ⟨fun t => (Page.read_eq h t).1, fun t => (Page.read_eq h t).2, ?_, ?_, ?_, ?_, ?_, ?_,
    ?_, ?_, ?_⟩
  · intro t ht
    rw [Page.delete_live h ((hlive t).mp ht)]
  · intro t ht
    exact Page.delete_dead h (Page.lookup_eq_none_iff.mp ht)
  · intro record hreuse
    rw [h.slotCount_eq, ← Page.findDeletedSlot_isSome_iff] at hreuse
    have hspace : page.slotSpace = 0 := if_pos hreuse
    have hiff : page.Fits record ↔ record.length ≤ page.header.upper - page.header.lower := by
      rw [Page.Fits]
      rw [hspace, Nat.add_zero]
    rw [← hiff]
    exact ⟨fun ⟨_, ht⟩ => ((Page.insert_ok_iff h).mp ht).1,
      fun hfit => ⟨page.target, (Page.insert_ok_iff h).mpr ⟨hfit, rfl⟩⟩⟩
  · intro record hgrow
    rw [h.slotCount_eq, ← Page.findDeletedSlot_isSome_iff] at hgrow
    have hspace : page.slotSpace = 6 := if_neg hgrow
    have hiff : page.Fits record
        ↔ record.length + 6 ≤ page.header.upper - page.header.lower := by
      rw [Page.Fits]
      rw [hspace]
    rw [← hiff]
    exact ⟨fun ⟨_, ht⟩ => ((Page.insert_ok_iff h).mp ht).1,
      fun hfit => ⟨page.target, (Page.insert_ok_iff h).mpr ⟨hfit, rfl⟩⟩⟩
  · intro record t ht
    obtain ⟨-, rfl⟩ := (Page.insert_ok_iff h).mp ht
    refine ⟨Page.lookup_eq_none_iff.mpr Page.target_not_live, ?_, ?_⟩
    · rw [h.slotCount_eq]
      exact Page.target_le page
    · intro t ht
      exact (hlive t).mpr (Page.live_below_target t ht)
  · intro record st hst
    by_cases hfit : page.Fits record
    · rw [Page.insert_fits h.header hfit] at hst
      exact nomatch hst
    · obtain ⟨message, hfull⟩ := Page.insert_full h.header hfit
      rw [hfull]
  · rw [h.slotCount_eq]
    exact ⟨h.lower_eq, h.ordered⟩
  · intro t ht
    rw [h.slotCount_eq]
    exact ⟨((hlive t).mp ht).1, h.inside t ((hlive t).mp ht)⟩
  · intro t u ht hu
    exact h.apart t u ((hlive t).mp ht) ((hlive u).mp hu)

/-- **A SLOTTED PAGE IS A FINITE MAP**: after `Initialize` on a payload of 1 to
    65535 bytes and any calls, the page serves exactly the map replayed from
    the replies, and its payload still has the size it started with. -/
theorem slottedPage_finite_map (page : Page) (kind : PageKind) (hk : kind ≠ .free)
    (hmin : 1 ≤ page.bytes.length) (hmax : page.bytes.length ≤ 65535)
    (calls : List PageCall) :
    ∃ fresh, page.initialize kind = (.ok (), fresh)
      ∧ (Run.final pageStep fresh calls).Serves
          ((Run.trace pageStep fresh calls).foldl trackPage fun _ => none)
      ∧ (Run.final pageStep fresh calls).bytes.length = page.bytes.length := by
  have hne : page.bytes ≠ [] := List.length_pos_iff.mp hmin
  obtain ⟨fresh, hinit, hwf, hempty, hlen, -, -, -⟩ := Page.initialize_ok hne hmax hk
  obtain ⟨hwf', hlen', hlookup⟩ :=
    Run.final_refines (fun p bound call => pageStep_represents p bound call) calls fresh
      (fun _ => none) (⟨hwf, hlen, funext hempty⟩ : fresh.Represents page.bytes.length _)
  refine ⟨fresh, hinit, ?_, hlen'⟩
  rw [← hlookup]
  exact hwf'.serves

/-- Twenty bytes: two records, a deletion, and the reuse of the deleted slot by
    an empty record on a page that is full. -/
theorem slottedPage_finite_map_twenty_bytes :
    ∃ fresh, Page.initialize (Page.mk {} (List.replicate 20 0)) .heap = (.ok (), fresh)
      ∧ (Run.final pageStep fresh
          [.insert [1, 2, 3], .insert [4, 5, 6, 7, 8], .delete 0, .insert []]).Serves
        ((Run.trace pageStep fresh
          [.insert [1, 2, 3], .insert [4, 5, 6, 7, 8], .delete 0, .insert []]).foldl
            trackPage fun _ => none) := by
  obtain ⟨fresh, hinit, hserves, -⟩ :=
    slottedPage_finite_map (Page.mk {} (List.replicate 20 0)) .heap (by decide) (by decide)
      (by decide) [.insert [1, 2, 3], .insert [4, 5, 6, 7, 8], .delete 0, .insert []]
  exact ⟨fresh, hinit, hserves⟩

end MattSql
