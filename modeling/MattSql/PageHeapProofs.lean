import Mathlib.Data.Finmap
import Mathlib.Data.List.Nodup
import Mathlib.Data.List.Range
import Mathlib.Algebra.Order.BigOperators.Group.List
import MattSql.SlottedPageProofs

/-! # Page-backed heap tables

    `storage/heap/page_heap_table.cpp`: a growing list of slotted pages with
    consecutive page ids, and a counter of live records beside it.

    A handle holds nothing but the shared pointer to the heap, so the model's
    heap is the shared state itself: what one handle does every handle sees.
    A pointer to a page of the vector is the page with its position.

    A well-formed heap (`PageHeapTable.WellFormed`) is seen in two ways: as the
    map `lookup` from record ids to bytes, and as the list `records` of all
    live records in page and slot order.  The cursor walks `records`; inserts
    and deletes act on `lookup`; `mem_records` ties the two together. -/

namespace MattSql

open Fallible

/-- `PageHeapTable::Impl`. -/
structure PageHeapTable where
  rootPageId : Nat := kInvalidPageId
  pageSize : Nat := kDefaultPageSize
  activeRecords : Nat := 0
  pages : List Page := []
  deriving DecidableEq

/-- `HeapPageFrame`: a zeroed page that knows its id. -/
def heapPageFrame (pageId pageSize : Nat) : Page :=
  { header := { pageId := pageId }, bytes := List.replicate pageSize 0 }

/-- `Impl::next_page_id`; the check in `AllocatePage` keeps the sum from
    wrapping. -/
def PageHeapTable.nextPageId (heap : PageHeapTable) : Nat :=
  (heap.rootPageId + heap.pages.length) % 2 ^ 64

/-- `Impl::AllocatePage`: the new last page. -/
def PageHeapTable.allocatePage (heap : PageHeapTable) : Result Page × PageHeapTable :=
  if heap.rootPageId = kInvalidPageId then
    (errorResult .invalidArgument (ascii "heap root page id is invalid"), heap)
  else if heap.pageSize = 0 then
    (errorResult .invalidArgument (ascii "heap page size must be positive"), heap)
  else if heap.pages.length > kInvalidPageId - 1 - heap.rootPageId then
    (errorResult .internal (ascii "heap page id space exhausted"), heap)
  else
    let frame := heapPageFrame heap.nextPageId heap.pageSize
    match frame.initialize .heap with
    -- the frame appended before the call is popped again
    | (.error st, _) => (.error st, heap)
    | (.ok (), page) => (.ok page, { heap with pages := heap.pages ++ [page] })

/-- `Impl::FindPage`: the first page with the id, with its position. -/
def PageHeapTable.findPage (heap : PageHeapTable) (pageId : Nat) : Option (Page × Nat) :=
  heap.pages.zipIdx.find? fun entry => entry.1.header.pageId = pageId

/-- The loop of `Insert` over the pages: `none` when every page answered
    `InvalidArgument`. -/
def insertFirstFit (record : Bytes) : List Page → Option (Result RecordId) × List Page
  | [] => (none, [])
  | page :: rest =>
    match page.insert record with
    | (.ok slot, page) => (some (.ok ⟨page.header.pageId, slot⟩), page :: rest)
    | (.error st, page) =>
      if st.code ≠ .invalidArgument then (some (.error st), page :: rest)
      else ((insertFirstFit record rest).1, page :: (insertFirstFit record rest).2)

/-- `PageHeapTable::Insert`.  Each live record occupies a directory entry in
    memory, so the increment of the counter cannot wrap. -/
def PageHeapTable.insert (heap : PageHeapTable) (record : Bytes) :
    Result RecordId × PageHeapTable :=
  match insertFirstFit record heap.pages with
  | (some (.ok id), pages) =>
    (.ok id, { heap with pages := pages, activeRecords := heap.activeRecords + 1 })
  | (some (.error st), pages) => (.error st, { heap with pages := pages })
  | (none, pages) =>
    match ({ heap with pages := pages }).allocatePage with
    | (.error st, heap) => (.error st, heap)
    | (.ok page, heap) =>
      match page.insert record with
      | (.error st, _) => (.error st, { heap with pages := heap.pages.dropLast })
      | (.ok slot, page) =>
        (.ok ⟨page.header.pageId, slot⟩,
          { heap with
            pages := heap.pages.dropLast ++ [page]
            activeRecords := heap.activeRecords + 1 })

/-- `PageHeapTable::Read`. -/
def PageHeapTable.read (heap : PageHeapTable) (recordId : RecordId) : Result RecordView :=
  match heap.findPage recordId.pageId with
  | none => errorResult .notFound (ascii "heap page not found")
  | some (page, _) => page.read recordId.slotId

/-- `PageHeapTable::Delete`; the decrement of a zero counter would wrap. -/
def PageHeapTable.delete (heap : PageHeapTable) (recordId : RecordId) :
    Result Unit × PageHeapTable :=
  match heap.findPage recordId.pageId with
  | none => (errorResult .notFound (ascii "heap page not found"), heap)
  | some (page, index) =>
    match page.delete recordId.slotId with
    | (.error st, page) => (.error st, { heap with pages := heap.pages.set index page })
    | (.ok (), page) =>
      (.ok (),
        { heap with
          pages := heap.pages.set index page
          activeRecords :=
            if heap.activeRecords = 0 then 2 ^ 64 - 1 else heap.activeRecords - 1 })

/-- `PageHeapTable::RecordCount`. -/
def PageHeapTable.recordCount (heap : PageHeapTable) : Nat := heap.activeRecords

/-- `PageHeapTable::Cursor`. -/
structure Cursor where
  pageIndex : Nat := 0
  slotId : Nat := 0

/-- The inner loop of `Next`: the next live slot of one page, and the slot id
    after it.  The first argument counts the slots left in the directory. -/
def nextInPage (page : Page) : (remaining slotId : Nat) → Option (Result RecordView) × Nat
  | 0, slotId => (none, slotId)
  | remaining + 1, slotId =>
    match page.read slotId with
    | .ok record => (some (.ok record), slotId + 1)
    | .error st =>
      if st.code = .notFound then nextInPage page remaining (slotId + 1)
      else (some (.error st), slotId + 1)

/-- The outer loop of `Next` over the pages from `page_index_` on. -/
def nextInPages : List Page → Cursor → Result RecordView × Cursor
  | [], cursor => (errorResult .notFound (ascii "end of heap scan"), cursor)
  | page :: rest, cursor =>
    match nextInPage page (page.slotCount - cursor.slotId) cursor.slotId with
    | (some record, slotId) => (record, ⟨cursor.pageIndex, slotId⟩)
    | (none, _) => nextInPages rest ⟨cursor.pageIndex + 1, 0⟩

/-- `PageHeapTable::Cursor::Next`. -/
def Cursor.next (heap : PageHeapTable) (cursor : Cursor) : Result RecordView × Cursor :=
  nextInPages (heap.pages.drop cursor.pageIndex) cursor

/-- A loop over a cursor that hands each record to `visit` and stops at the
    first failure, taking `NotFound` for the end.  The fuel bounds the number
    of calls to `Next`. -/
def scanLoop {α : Type} (heap : PageHeapTable) (visit : RecordView → Result α) :
    Nat → Cursor → Result (List α)
  | 0, _ => errorResult .undefined (ascii "scan does not end")
  | fuel + 1, cursor =>
    match cursor.next heap with
    | (.ok record, cursor) => do
      let a ← visit record
      let rest ← scanLoop heap visit fuel cursor
      .ok (a :: rest)
    | (.error st, _) => if st.code = .notFound then .ok [] else .error st

/-- A whole scan; no scan makes more calls than there are slots, and one. -/
def PageHeapTable.scan {α : Type} (heap : PageHeapTable) (visit : RecordView → Result α) :
    Result (List α) :=
  scanLoop heap visit ((heap.pages.map Page.slotCount).sum + 1) {}

/-! ## Records in page and slot order -/

/-- The live records of a page from slot `start` on. -/
def Page.recordsFrom (page : Page) (start : Nat) : List RecordView :=
  (List.range' start (page.slotCount - start)).filterMap fun s =>
    (page.lookup s).map fun record => ⟨⟨page.header.pageId, s⟩, record⟩

/-- The live records of a list of pages. -/
def pageRecords (pages : List Page) : List RecordView :=
  pages.flatMap fun page => page.recordsFrom 0

/-- The live records of a heap. -/
def PageHeapTable.records (heap : PageHeapTable) : List RecordView :=
  pageRecords heap.pages

variable {page : Page} {heap : PageHeapTable} {record : Bytes}

theorem Page.mem_recordsFrom (h : page.WellFormed) {start : Nat} {view : RecordView} :
    view ∈ page.recordsFrom start
      ↔ start ≤ view.id.slotId ∧ view.id.pageId = page.header.pageId
        ∧ page.lookup view.id.slotId = some view.bytes := by
  obtain ⟨⟨pageId, slotId⟩, bytes⟩ := view
  rw [Page.recordsFrom]
  rw [List.mem_filterMap]
  constructor
  · rintro ⟨s, hs, hmap⟩
    obtain ⟨r, hr, hview⟩ := Option.map_eq_some_iff.mp hmap
    cases hview
    rw [List.mem_range'_1] at hs
    exact ⟨hs.1, rfl, hr⟩
  · rintro ⟨hle, rfl, hr⟩
    have hlive : page.Live slotId := Page.lookup_isSome_iff.mp (by rw [hr]; rfl)
    have hlt := hlive.1
    refine ⟨slotId, ?_, by rw [hr]; rfl⟩
    rw [List.mem_range'_1, h.slotCount_eq]
    dsimp only at hle ⊢
    omega

/-- The order of a scan: by page, then by slot. -/
def RecordView.Before (a b : RecordView) : Prop :=
  a.id.pageId < b.id.pageId ∨ a.id.pageId = b.id.pageId ∧ a.id.slotId < b.id.slotId

theorem Page.recordsFrom_sorted (page : Page) (start : Nat) :
    (page.recordsFrom start).Pairwise RecordView.Before := by
  rw [Page.recordsFrom]
  rw [List.pairwise_filterMap]
  refine List.Pairwise.imp ?_ List.pairwise_lt_range'
  intro s t hst a ha b hb
  obtain ⟨r, -, rfl⟩ := Option.map_eq_some_iff.mp ha
  obtain ⟨r', -, rfl⟩ := Option.map_eq_some_iff.mp hb
  exact Or.inr ⟨rfl, hst⟩

/-! ## Well-formed heaps and the map they hold -/

/-- The pages of a heap: consecutive ids below `kInvalidPageId`, each page well
    formed and of the heap's page size. -/
structure PageHeapTable.Sound (heap : PageHeapTable) : Prop where
  root_valid : heap.rootPageId < kInvalidPageId
  ids_valid : heap.rootPageId + heap.pages.length ≤ kInvalidPageId
  page_ok : ∀ i page, heap.pages[i]? = some page →
    page.WellFormed ∧ page.header.pageId = heap.rootPageId + i
      ∧ page.bytes.length = heap.pageSize

/-- Sound pages, and the counter counts the live records. -/
structure PageHeapTable.WellFormed (heap : PageHeapTable) : Prop extends heap.Sound where
  counted : heap.activeRecords = heap.records.length

/-- The bytes bound to a record id. -/
def PageHeapTable.lookup (heap : PageHeapTable) (id : RecordId) : Option Bytes :=
  if heap.rootPageId ≤ id.pageId then
    heap.pages[id.pageId - heap.rootPageId]?.bind fun page => page.lookup id.slotId
  else none

theorem PageHeapTable.Sound.page_wellFormed (h : heap.Sound) :
    ∀ page ∈ heap.pages, page.WellFormed := by
  intro page hmem
  obtain ⟨i, hget⟩ := List.getElem?_of_mem hmem
  exact (h.page_ok i page hget).1

theorem PageHeapTable.Sound.findPage (h : heap.Sound) (pageId : Nat) :
    (∃ i page, heap.pages[i]? = some page ∧ pageId = heap.rootPageId + i
      ∧ heap.findPage pageId = some (page, i))
    ∨ (heap.findPage pageId = none
      ∧ ∀ i page, heap.pages[i]? = some page → pageId ≠ heap.rootPageId + i) := by
  rw [PageHeapTable.findPage]
  cases hf : heap.pages.zipIdx.find? fun entry => entry.1.header.pageId = pageId with
  | some entry =>
      obtain ⟨page, i⟩ := entry
      have hid := List.find?_some hf
      have hmem := List.mem_of_find?_eq_some hf
      rw [List.mem_zipIdx_iff_getElem?] at hmem
      refine Or.inl ⟨i, page, hmem, ?_, rfl⟩
      have := (h.page_ok i page hmem).2.1
      simp at hid
      omega
  | none =>
      refine Or.inr ⟨rfl, ?_⟩
      rintro i page hget rfl
      have hmem : (page, i) ∈ heap.pages.zipIdx := List.mem_zipIdx_iff_getElem?.mpr hget
      have hne := List.find?_eq_none.mp hf (page, i) hmem
      simp [(h.page_ok i page hget).2.1] at hne

theorem PageHeapTable.lookup_eq_some_iff {id : RecordId} :
    heap.lookup id = some record
      ↔ ∃ i page, heap.pages[i]? = some page ∧ id.pageId = heap.rootPageId + i
        ∧ page.lookup id.slotId = some record := by
  rw [PageHeapTable.lookup]
  constructor
  · intro hl
    split at hl
    · rename_i hle
      obtain ⟨page, hget, hrec⟩ := Option.bind_eq_some_iff.mp hl
      exact ⟨_, page, hget, by omega, hrec⟩
    · exact nomatch hl
  · rintro ⟨i, page, hget, hid, hrec⟩
    rw [if_pos (by omega), hid, Nat.add_sub_cancel_left, hget]
    exact hrec

/-- The two views of a heap agree: a record is listed exactly when it is
    bound. -/
theorem PageHeapTable.Sound.mem_records (h : heap.Sound) {view : RecordView} :
    view ∈ heap.records ↔ heap.lookup view.id = some view.bytes := by
  rw [PageHeapTable.lookup_eq_some_iff]
  rw [PageHeapTable.records, pageRecords]
  rw [List.mem_flatMap]
  constructor
  · rintro ⟨page, hmem, hview⟩
    obtain ⟨i, hget⟩ := List.getElem?_of_mem hmem
    obtain ⟨hwf, hid, -⟩ := h.page_ok i page hget
    obtain ⟨-, hpage, hrec⟩ := (Page.mem_recordsFrom hwf).mp hview
    exact ⟨i, page, hget, hpage.trans hid, hrec⟩
  · rintro ⟨i, page, hget, hid, hrec⟩
    obtain ⟨hwf, hpage, -⟩ := h.page_ok i page hget
    refine ⟨page, List.mem_of_getElem? hget, ?_⟩
    exact (Page.mem_recordsFrom hwf).mpr ⟨Nat.zero_le _, hid.trans hpage.symm, hrec⟩

/-- The records are listed in strictly increasing order. -/
theorem PageHeapTable.Sound.records_sorted (h : heap.Sound) :
    heap.records.Pairwise RecordView.Before := by
  rw [PageHeapTable.records, pageRecords]
  rw [List.pairwise_flatMap]
  refine ⟨fun page _ => page.recordsFrom_sorted 0, ?_⟩
  rw [List.pairwise_iff_getElem]
  intro i j hi hj hij a ha b hb
  obtain ⟨hwf, hid, -⟩ := h.page_ok i _ (List.getElem?_eq_getElem hi)
  obtain ⟨hwf', hid', -⟩ := h.page_ok j _ (List.getElem?_eq_getElem hj)
  obtain ⟨-, hpa, -⟩ := (Page.mem_recordsFrom hwf).mp ha
  obtain ⟨-, hpb, -⟩ := (Page.mem_recordsFrom hwf').mp hb
  left
  omega

theorem PageHeapTable.Sound.records_nodup (h : heap.Sound) : heap.records.Nodup := by
  refine h.records_sorted.imp ?_
  rintro a b hab rfl
  rcases hab with hlt | ⟨-, hlt⟩ <;> exact Nat.lt_irrefl _ hlt

/-- Binding a fresh id adds one record. -/
theorem records_perm_of_update {heap' : PageHeapTable} {id : RecordId} (record : Bytes)
    (h : heap.Sound) (h' : heap'.Sound) (hfresh : heap.lookup id = none)
    (hup : heap'.lookup = Function.update heap.lookup id (some record)) :
    heap'.records.Perm (⟨id, record⟩ :: heap.records) := by
  have hnew : (⟨id, record⟩ : RecordView) ∉ heap.records := by
    rw [h.mem_records, hfresh]
    exact nofun
  rw [List.perm_ext_iff_of_nodup h'.records_nodup (List.nodup_cons.mpr ⟨hnew, h.records_nodup⟩)]
  intro view
  rw [List.mem_cons, h'.mem_records, h.mem_records, hup]
  by_cases hid : view.id = id
  · subst hid
    rw [Function.update_self, hfresh, Option.some.injEq]
    constructor
    · rintro rfl
      exact Or.inl rfl
    · rintro (hv | hv)
      · rw [hv]
      · exact nomatch hv
  · rw [Function.update_of_ne hid]
    refine ⟨Or.inr, ?_⟩
    rintro (rfl | hv)
    · exact absurd rfl hid
    · exact hv

/-! ## Changing one page -/

/-- A page rewritten in place keeps the heap sound. -/
theorem PageHeapTable.Sound.set_page (h : heap.Sound) {i : Nat} {page' : Page}
    (hget : heap.pages[i]? = some page) (hwf : page'.WellFormed)
    (hid : page'.header.pageId = page.header.pageId)
    (hlen : page'.bytes.length = page.bytes.length) (count : Nat) :
    PageHeapTable.Sound
      { heap with pages := heap.pages.set i page', activeRecords := count } := by
  obtain ⟨-, hpage, hsize⟩ := h.page_ok i page hget
  refine ⟨h.root_valid, ?_, ?_⟩
  · show heap.rootPageId + (heap.pages.set i page').length ≤ _
    rw [List.length_set]
    exact h.ids_valid
  · intro j q hq
    dsimp only at hq ⊢
    rw [List.getElem?_set] at hq
    split at hq
    · rename_i hij
      subst hij
      split at hq
      · cases hq
        exact ⟨hwf, hid.trans hpage, hlen.trans hsize⟩
      · exact nomatch hq
    · exact h.page_ok j q hq

/-- A binding changed on one page is the same binding changed in the heap. -/
theorem PageHeapTable.lookup_set_page {i s : Nat} {page' : Page} {v : Option Bytes}
    (hget : heap.pages[i]? = some page)
    (hup : page'.lookup = Function.update page.lookup s v) (count : Nat) :
    PageHeapTable.lookup { heap with pages := heap.pages.set i page', activeRecords := count }
      = Function.update heap.lookup ⟨heap.rootPageId + i, s⟩ v := by
  obtain ⟨hi, hpage⟩ := List.getElem?_eq_some_iff.mp hget
  funext id
  obtain ⟨pageId, slotId⟩ := id
  by_cases hle : heap.rootPageId ≤ pageId
  · obtain ⟨j, rfl⟩ := Nat.exists_eq_add_of_le hle
    by_cases hij : i = j
    · subst hij
      unfold PageHeapTable.lookup
      by_cases hs : slotId = s
      · subst hs
        simp [hi, hup]
      · have hne : (⟨heap.rootPageId + i, slotId⟩ : RecordId) ≠ ⟨heap.rootPageId + i, s⟩ :=
          fun h => hs (congrArg RecordId.slotId h)
        rw [Function.update_of_ne hne]
        simp [hi, hup, hpage, Function.update_of_ne hs]
    · have hne : (⟨heap.rootPageId + j, slotId⟩ : RecordId) ≠ ⟨heap.rootPageId + i, s⟩ :=
        fun h => hij (by have := congrArg RecordId.pageId h; dsimp only at this; omega)
      rw [Function.update_of_ne hne]
      simp [PageHeapTable.lookup, List.getElem?_set_ne hij]
  · have hne : (⟨pageId, slotId⟩ : RecordId) ≠ ⟨heap.rootPageId + i, s⟩ :=
      fun h => hle (by have := congrArg RecordId.pageId h; dsimp only at this; omega)
    rw [Function.update_of_ne hne]
    simp [PageHeapTable.lookup, hle]

/-- An appended page keeps the heap sound. -/
theorem PageHeapTable.Sound.append_page (h : heap.Sound)
    (hroom : heap.rootPageId + heap.pages.length < kInvalidPageId) (hwf : page.WellFormed)
    (hid : page.header.pageId = heap.rootPageId + heap.pages.length)
    (hlen : page.bytes.length = heap.pageSize) (count : Nat) :
    PageHeapTable.Sound
      { heap with pages := heap.pages ++ [page], activeRecords := count } := by
  refine ⟨h.root_valid, ?_, ?_⟩
  · show heap.rootPageId + (heap.pages ++ [page]).length ≤ _
    rw [List.length_append, List.length_singleton]
    omega
  · intro j q hq
    dsimp only at hq ⊢
    rw [List.getElem?_append] at hq
    split at hq
    · exact h.page_ok j q hq
    · rename_i hj
      obtain ⟨rfl, rfl⟩ : j = heap.pages.length ∧ page = q := by
        rw [List.getElem?_singleton] at hq
        split at hq
        · cases hq
          exact ⟨by omega, rfl⟩
        · exact nomatch hq
      exact ⟨hwf, hid, hlen⟩

/-- A binding on a new page is a new binding of the heap. -/
theorem PageHeapTable.lookup_append_page {s : Nat}
    (hup : page.lookup = Function.update (fun _ => none) s (some record)) (count : Nat) :
    PageHeapTable.lookup { heap with pages := heap.pages ++ [page], activeRecords := count }
      = Function.update heap.lookup ⟨heap.rootPageId + heap.pages.length, s⟩ (some record) := by
  funext id
  obtain ⟨pageId, slotId⟩ := id
  by_cases hle : heap.rootPageId ≤ pageId
  · obtain ⟨j, rfl⟩ := Nat.exists_eq_add_of_le hle
    by_cases hj : j = heap.pages.length
    · subst hj
      unfold PageHeapTable.lookup
      by_cases hs : slotId = s
      · subst hs
        simp [hup]
      · have hne : (⟨heap.rootPageId + heap.pages.length, slotId⟩ : RecordId)
            ≠ ⟨heap.rootPageId + heap.pages.length, s⟩ :=
          fun h => hs (congrArg RecordId.slotId h)
        rw [Function.update_of_ne hne]
        simp [hup, Function.update_of_ne hs]
    · have hne : (⟨heap.rootPageId + j, slotId⟩ : RecordId)
          ≠ ⟨heap.rootPageId + heap.pages.length, s⟩ :=
        fun h => hj (by have := congrArg RecordId.pageId h; dsimp only at this; omega)
      have hget : (heap.pages ++ [page])[j]? = heap.pages[j]? := by
        rw [List.getElem?_append]
        split
        · rfl
        · rw [List.getElem?_eq_none (by simp; omega), List.getElem?_eq_none (by omega)]
      rw [Function.update_of_ne hne]
      simp [PageHeapTable.lookup, hget]
  · have hne : (⟨pageId, slotId⟩ : RecordId)
        ≠ ⟨heap.rootPageId + heap.pages.length, s⟩ :=
      fun h => hle (by have := congrArg RecordId.pageId h; dsimp only at this; omega)
    rw [Function.update_of_ne hne]
    simp [PageHeapTable.lookup, hle]

/-! ## Insert -/

private theorem insertFirstFit_cons (page : Page) (rest : List Page) :
    insertFirstFit record (page :: rest)
      = match page.insert record with
        | (.ok slot, page) => (some (.ok ⟨page.header.pageId, slot⟩), page :: rest)
        | (.error st, page) =>
          if st.code ≠ .invalidArgument then (some (.error st), page :: rest)
          else ((insertFirstFit record rest).1, page :: (insertFirstFit record rest).2) := rfl

/-- The loop over the pages stops at the first page where the record fits. -/
theorem insertFirstFit_at {pages : List Page} (hwf : ∀ page ∈ pages, page.WellFormed) {i : Nat}
    (hget : pages[i]? = some page) (hfit : page.Fits record)
    (hfirst : ∀ j < i, ∀ q, pages[j]? = some q → ¬ q.Fits record) :
    insertFirstFit record pages
      = (some (.ok ⟨page.header.pageId, page.target⟩), pages.set i (page.inserted record)) := by
  induction pages generalizing i with
  | nil => cases hget
  | cons first rest ih =>
      have hwell := hwf first List.mem_cons_self
      rw [insertFirstFit_cons]
      cases i with
      | zero =>
          cases hget
          rw [Page.insert_fits hwell.header hfit]
          rfl
      | succ i =>
          obtain ⟨message, hfull⟩ :=
            Page.insert_full hwell.header (hfirst 0 (Nat.zero_lt_succ i) first rfl)
          rw [hfull]
          dsimp only [errorResult]
          rw [if_neg (by simp), ih (fun q hq => hwf q (List.mem_cons_of_mem first hq)) hget
            fun j hj q hq => hfirst (j + 1) (Nat.succ_lt_succ hj) q hq, List.set_cons_succ]

/-- Without such a page the loop leaves them all as they are. -/
theorem insertFirstFit_none {pages : List Page} (hwf : ∀ page ∈ pages, page.WellFormed)
    (hnone : ∀ page ∈ pages, ¬ page.Fits record) :
    insertFirstFit record pages = (none, pages) := by
  induction pages with
  | nil => rfl
  | cons first rest ih =>
      obtain ⟨message, hfull⟩ := Page.insert_full (hwf first List.mem_cons_self).header
        (hnone first List.mem_cons_self)
      rw [insertFirstFit_cons, hfull]
      dsimp only [errorResult]
      rw [if_neg (by simp), ih (fun q hq => hwf q (List.mem_cons_of_mem first hq))
        fun q hq => hnone q (List.mem_cons_of_mem first hq)]

/-- Among the pages where the record fits there is a first one. -/
theorem exists_first_fit {pages : List Page} (h : ∃ page ∈ pages, page.Fits record) :
    ∃ (i : Nat) (page : Page), pages[i]? = some page ∧ page.Fits record
      ∧ ∀ j < i, ∀ q, pages[j]? = some q → ¬ q.Fits record := by
  induction pages with
  | nil =>
      obtain ⟨page, hmem, -⟩ := h
      exact absurd hmem List.not_mem_nil
  | cons first rest ih =>
      by_cases hfit : first.Fits record
      · exact ⟨0, first, rfl, hfit, fun j hj => absurd hj (Nat.not_lt_zero j)⟩
      · obtain ⟨page, hmem, hpage⟩ := h
        have hrest : page ∈ rest := by
          rcases List.mem_cons.mp hmem with rfl | hmem
          · exact absurd hpage hfit
          · exact hmem
        obtain ⟨i, q, hget, hq, hfirst⟩ := ih ⟨page, hrest, hpage⟩
        refine ⟨i + 1, q, hget, hq, ?_⟩
        intro j hj r hr
        cases j with
        | zero =>
            cases hr
            exact hfit
        | succ j => exact hfirst j (Nat.lt_of_succ_lt_succ hj) r hr

/-- A page that takes a record has at least its size and a directory entry. -/
theorem Page.Fits.size_le (h : page.WellFormed) (hfit : page.Fits record) :
    record.length + 6 ≤ page.bytes.length := by
  have hlow := h.lower_eq
  have hord := h.ordered
  have hbound := h.bounded
  rw [Page.Fits, Page.slotSpace] at hfit
  cases hf : findDeletedSlot page with
  | none =>
      rw [hf, Option.isSome_none, if_neg Bool.false_ne_true] at hfit
      omega
  | some t =>
      have := (findDeletedSlot_some hf).1
      rw [hf, Option.isSome_some, if_pos rfl] at hfit
      omega

/-- `AllocatePage` with ids left and a supported page size. -/
theorem PageHeapTable.Sound.allocatePage_ok (h : heap.Sound)
    (hroom : heap.rootPageId + heap.pages.length < kInvalidPageId)
    (hmin : 1 ≤ heap.pageSize) (hmax : heap.pageSize ≤ 65535) :
    ∃ fresh, heap.allocatePage = (.ok fresh, { heap with pages := heap.pages ++ [fresh] })
      ∧ fresh.WellFormed ∧ (∀ t, fresh.lookup t = none)
      ∧ fresh.bytes.length = heap.pageSize
      ∧ fresh.header.pageId = heap.rootPageId + heap.pages.length
      ∧ fresh.header.lower = 0 ∧ fresh.header.upper = heap.pageSize := by
  have hroot := h.root_valid
  have hnext : heap.nextPageId = heap.rootPageId + heap.pages.length :=
    Nat.mod_eq_of_lt (by unfold kInvalidPageId at hroom; omega)
  have hlen : (heapPageFrame heap.nextPageId heap.pageSize).bytes.length = heap.pageSize :=
    List.length_replicate
  obtain ⟨fresh, hinit, hwf, hempty, hsize, hid, hlower, hupper⟩ :=
    @Page.initialize_ok (heapPageFrame heap.nextPageId heap.pageSize) .heap
      (List.length_pos_iff.mp (by rw [hlen]; exact hmin)) (by rw [hlen]; exact hmax)
      (by decide)
  refine ⟨fresh, ?_, hwf, hempty, hsize.trans hlen, hid.trans hnext, hlower,
    hupper.trans hlen⟩
  rw [PageHeapTable.allocatePage]
  rw [if_neg (by omega), if_neg (by omega), if_neg (by omega)]
  dsimp only
  rw [hinit]

/-- `AllocatePage` otherwise: the heap is as before. -/
theorem PageHeapTable.Sound.allocatePage_error (h : heap.Sound)
    (hno : ¬ (heap.rootPageId + heap.pages.length < kInvalidPageId
      ∧ 1 ≤ heap.pageSize ∧ heap.pageSize ≤ 65535)) :
    ∃ st, heap.allocatePage = (.error st, heap)
      ∧ (st.code = .invalidArgument
        ∨ st.code = .internal
          ∧ ¬ heap.rootPageId + heap.pages.length < kInvalidPageId) := by
  have hroot := h.root_valid
  rw [PageHeapTable.allocatePage]
  rw [if_neg (by omega)]
  by_cases hzero : heap.pageSize = 0
  · rw [if_pos hzero]
    exact ⟨_, rfl, Or.inl rfl⟩
  · rw [if_neg hzero]
    by_cases hids : heap.pages.length > kInvalidPageId - 1 - heap.rootPageId
    · rw [if_pos hids]
      exact ⟨_, rfl, Or.inr ⟨rfl, by omega⟩⟩
    · rw [if_neg hids]
      have hlen : (heapPageFrame heap.nextPageId heap.pageSize).bytes.length = heap.pageSize :=
        List.length_replicate
      have hne : (heapPageFrame heap.nextPageId heap.pageSize).bytes ≠ [] := by
        rw [← List.length_pos_iff, hlen]
        omega
      have hinit : Page.initialize (heapPageFrame heap.nextPageId heap.pageSize) .heap
          = (errorResult .invalidArgument
              (ascii "slotted page is larger than 16-bit offsets support"),
            heapPageFrame heap.nextPageId heap.pageSize) := by
        unfold Page.initialize
        rw [if_neg hne, if_pos (by rw [hlen]; unfold kMaxU16; omega)]
      dsimp only
      rw [hinit]
      exact ⟨_, rfl, Or.inl rfl⟩

/-- An empty page takes a record exactly when it and its directory entry are no
    larger than the page. -/
theorem Page.fits_empty_iff (h : page.WellFormed) (hempty : page.header.lower = 0)
    (hupper : page.header.upper = page.bytes.length) :
    page.Fits record ↔ record.length + 6 ≤ page.bytes.length := by
  constructor
  · exact Page.Fits.size_le h
  · intro hle
    have hspace : page.slotSpace ≤ 6 := by
      rw [Page.slotSpace]
      split <;> omega
    rw [Page.Fits]
    omega

/-- What a successful insert does: a fresh id is bound to the record and
    nothing else changes. -/
structure PageHeapTable.Inserts (heap : PageHeapTable) (record : Bytes) (id : RecordId)
    (heap' : PageHeapTable) : Prop where
  wellFormed : heap'.WellFormed
  fresh : heap.lookup id = none
  lookup : heap'.lookup = Function.update heap.lookup id (some record)
  root : heap'.rootPageId = heap.rootPageId
  pageSize : heap'.pageSize = heap.pageSize
  perm : heap'.records.Perm (⟨id, record⟩ :: heap.records)

/-- A sound heap with one more binding and the counter advanced is an insert. -/
private theorem PageHeapTable.WellFormed.inserts (h : heap.WellFormed) {heap' : PageHeapTable}
    {id : RecordId} (hs : heap'.Sound) (hfresh : heap.lookup id = none)
    (hup : heap'.lookup = Function.update heap.lookup id (some record))
    (hroot : heap'.rootPageId = heap.rootPageId) (hsize : heap'.pageSize = heap.pageSize)
    (hcount : heap'.activeRecords = heap.activeRecords + 1) :
    heap.Inserts record id heap' := by
  have hperm := records_perm_of_update record h.toSound hs hfresh hup
  refine ⟨⟨hs, ?_⟩, hfresh, hup, hroot, hsize, hperm⟩
  rw [hcount, h.counted, hperm.length_eq, List.length_cons]

/-- An insert with room on an existing page takes the first such page. -/
theorem PageHeapTable.Sound.insert_existing (h : heap.Sound) {i : Nat}
    (hget : heap.pages[i]? = some page) (hfit : page.Fits record)
    (hfirst : ∀ j < i, ∀ q, heap.pages[j]? = some q → ¬ q.Fits record) :
    heap.insert record
      = (.ok ⟨page.header.pageId, page.target⟩,
          { heap with
            pages := heap.pages.set i (page.inserted record)
            activeRecords := heap.activeRecords + 1 }) := by
  rw [PageHeapTable.insert]
  rw [insertFirstFit_at h.page_wellFormed hget hfit hfirst]

/-- An insert without room on the existing pages appends an empty page. -/
theorem PageHeapTable.Sound.insert_fresh (h : heap.Sound)
    (hnone : ∀ page ∈ heap.pages, ¬ page.Fits record)
    (hroom : heap.rootPageId + heap.pages.length < kInvalidPageId)
    (hmax : heap.pageSize ≤ 65535) (hsize : record.length + 6 ≤ heap.pageSize) :
    ∃ fresh : Page, heap.insert record
        = (.ok ⟨heap.rootPageId + heap.pages.length, fresh.target⟩,
            { heap with
              pages := heap.pages ++ [fresh.inserted record]
              activeRecords := heap.activeRecords + 1 })
      ∧ fresh.WellFormed ∧ fresh.Fits record ∧ (∀ t, fresh.lookup t = none)
      ∧ fresh.bytes.length = heap.pageSize
      ∧ fresh.header.pageId = heap.rootPageId + heap.pages.length
      ∧ fresh.header.lower = 0 ∧ fresh.header.upper = heap.pageSize := by
  obtain ⟨fresh, halloc, hwf, hempty, hlen, hid, hlower, hupper⟩ :=
    h.allocatePage_ok hroom (by omega) hmax
  have hfit : fresh.Fits record := by
    rw [Page.fits_empty_iff hwf hlower (hupper.trans hlen.symm), hlen]
    exact hsize
  refine ⟨fresh, ?_, hwf, hfit, hempty, hlen, hid, hlower, hupper⟩
  rw [PageHeapTable.insert]
  rw [insertFirstFit_none h.page_wellFormed hnone]
  dsimp only
  rw [halloc]
  dsimp only
  rw [Page.insert_fits hwf.header hfit]
  dsimp only
  rw [List.dropLast_concat]
  show (Except.ok (⟨fresh.header.pageId, fresh.target⟩ : RecordId), _) = _
  rw [hid]

/-- The appended page, without its frontiers. -/
theorem PageHeapTable.Sound.insert_appending (h : heap.Sound)
    (hnone : ∀ page ∈ heap.pages, ¬ page.Fits record)
    (hroom : heap.rootPageId + heap.pages.length < kInvalidPageId)
    (hmax : heap.pageSize ≤ 65535) (hsize : record.length + 6 ≤ heap.pageSize) :
    ∃ fresh : Page, heap.insert record
        = (.ok ⟨heap.rootPageId + heap.pages.length, fresh.target⟩,
            { heap with
              pages := heap.pages ++ [fresh.inserted record]
              activeRecords := heap.activeRecords + 1 })
      ∧ fresh.WellFormed ∧ fresh.Fits record ∧ (∀ t, fresh.lookup t = none)
      ∧ fresh.bytes.length = heap.pageSize
      ∧ fresh.header.pageId = heap.rootPageId + heap.pages.length := by
  obtain ⟨fresh, heq, hwf, hfit, hempty, hlen, hid, -⟩ := h.insert_fresh hnone hroom hmax hsize
  exact ⟨fresh, heq, hwf, hfit, hempty, hlen, hid⟩

/-- An insert with no room anywhere is refused, and a page that was appended
    for it is dropped again. -/
theorem PageHeapTable.Sound.insert_refused (h : heap.Sound)
    (hnone : ∀ page ∈ heap.pages, ¬ page.Fits record)
    (hno : ¬ (heap.rootPageId + heap.pages.length < kInvalidPageId ∧ heap.pageSize ≤ 65535
      ∧ record.length + 6 ≤ heap.pageSize)) :
    ∃ st, heap.insert record = (.error st, heap)
      ∧ (st.code = .invalidArgument
          ∧ ¬ (record.length + 6 ≤ heap.pageSize ∧ heap.pageSize ≤ 65535)
        ∨ ¬ heap.rootPageId + heap.pages.length < kInvalidPageId
          ∧ (st.code = .invalidArgument ∨ st.code = .internal)) := by
  rw [PageHeapTable.insert]
  rw [insertFirstFit_none h.page_wellFormed hnone]
  dsimp only
  by_cases hcan : heap.rootPageId + heap.pages.length < kInvalidPageId
      ∧ 1 ≤ heap.pageSize ∧ heap.pageSize ≤ 65535
  · -- the page is there, and the record is too large for it
    obtain ⟨hroom, hmin, hmax⟩ := hcan
    obtain ⟨fresh, halloc, hwf, -, hlen, -, hlower, hupper⟩ := h.allocatePage_ok hroom hmin hmax
    have hbig : ¬ record.length + 6 ≤ heap.pageSize := fun hle => hno ⟨hroom, hmax, hle⟩
    have hfit : ¬ fresh.Fits record := by
      rw [Page.fits_empty_iff hwf hlower (hupper.trans hlen.symm), hlen]
      exact hbig
    obtain ⟨message, hfull⟩ := Page.insert_full hwf.header hfit
    rw [halloc]
    dsimp only
    rw [hfull]
    rw [List.dropLast_concat]
    exact ⟨_, rfl, Or.inl ⟨rfl, fun hle => hbig hle.1⟩⟩
  · obtain ⟨st, halloc, hcode⟩ := h.allocatePage_error hcan
    rw [halloc]
    refine ⟨st, rfl, ?_⟩
    by_cases hroom : heap.rootPageId + heap.pages.length < kInvalidPageId
    · rcases hcode with hcode | ⟨-, hfull⟩
      · exact Or.inl ⟨hcode, fun hle => hcan ⟨hroom, by omega, hle.2⟩⟩
      · exact absurd hroom hfull
    · exact Or.inr ⟨hroom, hcode.imp_right And.left⟩

/-- **INSERT**: on a well-formed heap an insert binds a fresh id, or fails and
    leaves the heap as it was.  It fails only when the record with its
    directory entry exceeds the page size, the page size is not supported, or
    the page ids are used up. -/
theorem PageHeapTable.WellFormed.insert_spec (h : heap.WellFormed) (record : Bytes) :
    (∃ id heap', heap.insert record = (.ok id, heap') ∧ heap.Inserts record id heap'
      ∧ record.length + 6 ≤ heap.pageSize)
    ∨ ∃ st, heap.insert record = (.error st, heap)
      ∧ (st.code = .invalidArgument
          ∧ ¬ (record.length + 6 ≤ heap.pageSize ∧ heap.pageSize ≤ 65535)
        ∨ ¬ heap.rootPageId + heap.pages.length < kInvalidPageId
          ∧ (st.code = .invalidArgument ∨ st.code = .internal)) := by
  by_cases hexists : ∃ page ∈ heap.pages, page.Fits record
  · -- some page has room: its target slot is bound
    obtain ⟨i, page, hget, hfit, hfirst⟩ := exists_first_fit hexists
    obtain ⟨hwf, hid, hlen⟩ := h.page_ok i page hget
    have hslots := Page.inserted_length hwf.header hfit
    have hlookup := Page.inserted_lookup hwf hfit
    rw [h.insert_existing hget hfit hfirst]
    refine Or.inl ⟨_, _, rfl, ?_, hlen ▸ Page.Fits.size_le hwf hfit⟩
    refine h.inserts
      (h.toSound.set_page hget (Page.inserted_wellFormed hwf hfit) rfl hslots _) ?_ ?_ rfl rfl rfl
    · cases hl : heap.lookup ⟨page.header.pageId, page.target⟩ with
      | none => rfl
      | some r =>
          obtain ⟨j, q, hq, hj, hr⟩ := PageHeapTable.lookup_eq_some_iff.mp hl
          have hij : i = j := by
            dsimp only at hj
            omega
          subst hij
          cases hget.symm.trans hq
          exact absurd (Page.lookup_isSome_iff.mp (by rw [hr]; rfl)) Page.target_not_live
    · rw [hid]
      exact PageHeapTable.lookup_set_page hget hlookup _
  · have hnone : ∀ page ∈ heap.pages, ¬ page.Fits record :=
      fun page hmem hfit => hexists ⟨page, hmem, hfit⟩
    by_cases hcan : heap.rootPageId + heap.pages.length < kInvalidPageId
        ∧ heap.pageSize ≤ 65535 ∧ record.length + 6 ≤ heap.pageSize
    · obtain ⟨hroom, hmax, hsize⟩ := hcan
      obtain ⟨fresh, heq, hwf, hfit, hempty, hlen, hid⟩ :=
        h.insert_appending hnone hroom hmax hsize
      rw [heq]
      refine Or.inl ⟨_, _, rfl, ?_, hsize⟩
      -- the fresh page holds the record and nothing else
      have hup : (fresh.inserted record).lookup
          = Function.update (fun _ => none) fresh.target (some record) := by
        rw [Page.inserted_lookup hwf hfit, funext hempty]
      have hid' : (fresh.inserted record).header.pageId
          = heap.rootPageId + heap.pages.length := hid
      refine h.inserts
        (h.toSound.append_page hroom (Page.inserted_wellFormed hwf hfit) hid'
          ((Page.inserted_length hwf.header hfit).trans hlen) _) ?_
        (PageHeapTable.lookup_append_page hup _) rfl rfl rfl
      cases hl : heap.lookup ⟨heap.rootPageId + heap.pages.length, fresh.target⟩ with
      | none => rfl
      | some r =>
          obtain ⟨j, q, hq, hj, -⟩ := PageHeapTable.lookup_eq_some_iff.mp hl
          have hlt := (List.getElem?_eq_some_iff.mp hq).1
          dsimp only at hj
          omega
    · exact Or.inr (h.insert_refused hnone hcan)

/-! ## Read and delete -/

theorem PageHeapTable.WellFormed.read_spec (h : heap.WellFormed) (id : RecordId) :
    (∀ record, heap.lookup id = some record → heap.read id = .ok ⟨id, record⟩)
    ∧ (heap.lookup id = none → ∃ message, heap.read id = errorResult .notFound message) := by
  obtain ⟨pageId, slotId⟩ := id
  rw [PageHeapTable.read]
  rcases h.findPage pageId with ⟨i, page, hget, rfl, hfind⟩ | ⟨hfind, hno⟩
  · obtain ⟨hwf, hid, -⟩ := h.page_ok i page hget
    have hlookup : heap.lookup ⟨heap.rootPageId + i, slotId⟩ = page.lookup slotId := by
      simp [PageHeapTable.lookup, hget]
    rw [hfind, hlookup]
    dsimp only
    rw [← hid]
    exact Page.read_eq hwf slotId
  · rw [hfind]
    refine ⟨?_, fun _ => ⟨_, rfl⟩⟩
    intro record hl
    obtain ⟨i, page, hget, hid, -⟩ := PageHeapTable.lookup_eq_some_iff.mp hl
    exact absurd hid (hno i page hget)

/-- **DELETE**: unbinds a live id and nothing else; a dead id is refused. -/
theorem PageHeapTable.WellFormed.delete_spec (h : heap.WellFormed) (id : RecordId) :
    (heap.lookup id ≠ none → ∃ heap', heap.delete id = (.ok (), heap') ∧ heap'.WellFormed
      ∧ heap'.lookup = Function.update heap.lookup id none
      ∧ heap'.rootPageId = heap.rootPageId ∧ heap'.pageSize = heap.pageSize)
    ∧ (heap.lookup id = none →
        ∃ message, heap.delete id = (errorResult .notFound message, heap)) := by
  obtain ⟨pageId, slotId⟩ := id
  rw [PageHeapTable.delete]
  rcases h.findPage pageId with ⟨i, page, hget, rfl, hfind⟩ | ⟨hfind, hno⟩
  · obtain ⟨hwf, hid, -⟩ := h.page_ok i page hget
    have hlookup : heap.lookup ⟨heap.rootPageId + i, slotId⟩ = page.lookup slotId := by
      simp [PageHeapTable.lookup, hget]
    rw [hfind, hlookup]
    dsimp only
    constructor
    · intro hne
      have hlive : page.Live slotId := by
        rw [Ne, Page.lookup_eq_none_iff, not_not] at hne
        exact hne
      rw [Page.delete_live hwf hlive]
      have hs := fun count => h.toSound.set_page hget (Page.deleted_wellFormed hwf hlive) rfl
        (Page.deleted_length hwf.header hlive) count
      have hup := fun count =>
        PageHeapTable.lookup_set_page hget (Page.deleted_lookup hwf hlive) count
      refine ⟨_, rfl, ⟨hs _, ?_⟩, hup _, rfl, rfl⟩
      -- the old heap is the new one with the deleted record bound again
      obtain ⟨r, hr⟩ := Option.ne_none_iff_exists'.mp hne
      have hback := records_perm_of_update r (hs heap.activeRecords) h.toSound
        (by rw [hup]; exact Function.update_self ..)
        (by
          rw [hup, Function.update_idem, ← hr, ← hlookup, Function.update_eq_self])
      have hcount := hback.length_eq
      rw [List.length_cons, ← h.counted] at hcount
      show (if heap.activeRecords = 0 then _ else heap.activeRecords - 1) = _
      rw [if_neg (by omega), hcount]
      rfl
    · intro hnone
      obtain ⟨message, hdead⟩ := Page.delete_dead hwf (Page.lookup_eq_none_iff.mp hnone)
      obtain ⟨hi, hpage⟩ := List.getElem?_eq_some_iff.mp hget
      have hset : heap.pages.set i page = heap.pages := by
        rw [← hpage, List.set_getElem_self]
      rw [hdead]
      refine ⟨message, ?_⟩
      show (errorResult .notFound message, { heap with pages := heap.pages.set i page }) = _
      rw [hset]
  · rw [hfind]
    refine ⟨?_, fun _ => ⟨_, rfl⟩⟩
    intro hne
    obtain ⟨r, hr⟩ := Option.ne_none_iff_exists'.mp hne
    obtain ⟨i, page, hget, hid, -⟩ := PageHeapTable.lookup_eq_some_iff.mp hr
    exact absurd hid (hno i page hget)

/-! ## The cursor -/

private theorem nextInPage_succ (page : Page) (remaining slotId : Nat) :
    nextInPage page (remaining + 1) slotId
      = match page.read slotId with
        | .ok record => (some (.ok record), slotId + 1)
        | .error st =>
          if st.code = .notFound then nextInPage page remaining (slotId + 1)
          else (some (.error st), slotId + 1) := rfl

private theorem Page.recordsFrom_succ {slotId : Nat} (h : slotId < page.slotCount) :
    page.recordsFrom slotId
      = (match page.lookup slotId with
        | none => []
        | some record => [⟨⟨page.header.pageId, slotId⟩, record⟩])
        ++ page.recordsFrom (slotId + 1) := by
  obtain ⟨n, hn⟩ : ∃ n, page.slotCount - slotId = n + 1 := ⟨_, (Nat.succ_pred (by omega)).symm⟩
  have hn' : page.slotCount - (slotId + 1) = n := by omega
  unfold Page.recordsFrom
  rw [hn, hn', List.range'_succ, List.filterMap_cons]
  cases page.lookup slotId <;> rfl

/-- The inner loop stops at the first live record left on the page. -/
theorem nextInPage_spec (h : page.WellFormed) (remaining slotId : Nat)
    (hrem : remaining = page.slotCount - slotId) :
    (page.recordsFrom slotId = [] ∧ (nextInPage page remaining slotId).1 = none)
    ∨ ∃ view rest slotId', page.recordsFrom slotId = view :: rest
      ∧ nextInPage page remaining slotId = (some (.ok view), slotId')
      ∧ page.recordsFrom slotId' = rest := by
  induction remaining generalizing slotId with
  | zero =>
      refine Or.inl ⟨?_, rfl⟩
      rw [Page.recordsFrom]
      rw [← hrem]
      rfl
  | succ n ih =>
      rw [Page.recordsFrom_succ (by omega), nextInPage_succ]
      cases hl : page.lookup slotId with
      | some record =>
          rw [(Page.read_eq h slotId).1 record hl]
          exact Or.inr ⟨_, _, _, rfl, rfl, rfl⟩
      | none =>
          obtain ⟨message, hread⟩ := (Page.read_eq h slotId).2 hl
          rw [hread]
          exact ih (slotId + 1) (by omega)

/-- The live records from a cursor position on; the pages are those from the
    cursor's page on. -/
def recordsAfter (cursor : Cursor) : List Page → List RecordView
  | [] => []
  | page :: rest => page.recordsFrom cursor.slotId ++ pageRecords rest

private theorem recordsAfter_zero (i : Nat) (pages : List Page) :
    recordsAfter ⟨i, 0⟩ pages = pageRecords pages := by
  cases pages <;> rfl

private theorem nextInPages_cons (page : Page) (rest : List Page) (cursor : Cursor) :
    nextInPages (page :: rest) cursor
      = match nextInPage page (page.slotCount - cursor.slotId) cursor.slotId with
        | (some record, slotId) => (record, ⟨cursor.pageIndex, slotId⟩)
        | (none, _) => nextInPages rest ⟨cursor.pageIndex + 1, 0⟩ := rfl

/-- The outer loop yields the first live record left, and moves past it. -/
theorem nextInPages_spec (pages : List Page) (hwf : ∀ page ∈ pages, page.WellFormed)
    (cursor : Cursor) :
    (recordsAfter cursor pages = []
      ∧ ∃ message cursor', nextInPages pages cursor = (errorResult .notFound message, cursor'))
    ∨ ∃ view rest cursor' k, recordsAfter cursor pages = view :: rest
      ∧ nextInPages pages cursor = (.ok view, cursor')
      ∧ cursor'.pageIndex = cursor.pageIndex + k
      ∧ recordsAfter cursor' (pages.drop k) = rest := by
  -- induction on the pages from the cursor's on
  induction pages generalizing cursor with
  | nil => exact Or.inl ⟨rfl, _, _, rfl⟩
  | cons page tail ih =>
      have htail := fun q hq => hwf q (List.mem_cons_of_mem page hq)
      rw [nextInPages_cons]
      rcases nextInPage_spec (hwf page List.mem_cons_self) _ cursor.slotId rfl with
        ⟨hnil, hnone⟩ | ⟨view, rest, slotId', hcons, hnext, hrest⟩
      · -- nothing left on this page: go on with the next one
        have hskip : recordsAfter cursor (page :: tail)
            = recordsAfter ⟨cursor.pageIndex + 1, 0⟩ tail := by
          show page.recordsFrom cursor.slotId ++ pageRecords tail = _
          rw [hnil, List.nil_append, recordsAfter_zero]
        have hmatch : (match nextInPage page (page.slotCount - cursor.slotId) cursor.slotId with
            | (some record, slotId) => (record, (⟨cursor.pageIndex, slotId⟩ : Cursor))
            | (none, _) => nextInPages tail ⟨cursor.pageIndex + 1, 0⟩)
            = nextInPages tail ⟨cursor.pageIndex + 1, 0⟩ := by
          rw [← Prod.eta (nextInPage page _ _), hnone]
        rw [hskip, hmatch]
        rcases ih htail ⟨cursor.pageIndex + 1, 0⟩ with hend | ⟨view, rest, c, k, hc, hn, hk, hr⟩
        · exact Or.inl hend
        · refine Or.inr ⟨view, rest, c, k + 1, hc, hn, ?_, hr⟩
          dsimp only at hk
          omega
      · rw [hnext]
        refine Or.inr ⟨view, rest ++ pageRecords tail, ⟨cursor.pageIndex, slotId'⟩, 0, ?_, rfl,
          rfl, ?_⟩
        · show page.recordsFrom cursor.slotId ++ pageRecords tail = _
          rw [hcons, List.cons_append]
        · show page.recordsFrom slotId' ++ pageRecords tail = _
          rw [hrest]

/-- A loop with enough fuel visits exactly the records left, in order. -/
theorem PageHeapTable.Sound.scanLoop_eq {α : Type} (h : heap.Sound)
    (visit : RecordView → Result α) (fuel : Nat) (cursor : Cursor)
    (hfuel : (recordsAfter cursor (heap.pages.drop cursor.pageIndex)).length < fuel) :
    scanLoop heap visit fuel cursor
      = (recordsAfter cursor (heap.pages.drop cursor.pageIndex)).mapM visit := by
  have hwf : ∀ k, ∀ page ∈ heap.pages.drop k, page.WellFormed :=
    fun k page hmem => h.page_wellFormed page (List.mem_of_mem_drop hmem)
  induction fuel generalizing cursor with
  | zero => exact absurd hfuel (Nat.not_lt_zero _)
  | succ fuel ih =>
      rw [scanLoop, Cursor.next]
      rcases nextInPages_spec _ (hwf cursor.pageIndex) cursor with
        ⟨hnil, message, c, hnext⟩ | ⟨view, rest, c, k, hcons, hnext, hk, hrest⟩
      · rw [hnext, hnil, List.mapM_nil]
        rfl
      · rw [List.drop_drop, ← hk] at hrest
        rw [hcons, List.length_cons] at hfuel
        rw [hnext, hcons, List.mapM_cons]
        dsimp only
        rw [ih c (by rw [hrest]; omega), hrest]
        rfl

/-- **SCAN**: a whole scan visits exactly the live records, in page and slot
    order. -/
theorem PageHeapTable.Sound.scan_eq {α : Type} (h : heap.Sound)
    (visit : RecordView → Result α) : heap.scan visit = heap.records.mapM visit := by
  have hstart : recordsAfter {} (heap.pages.drop ({} : Cursor).pageIndex) = heap.records :=
    recordsAfter_zero 0 heap.pages
  have hbound : heap.records.length ≤ (heap.pages.map Page.slotCount).sum := by
    rw [PageHeapTable.records, pageRecords]
    rw [List.length_flatMap]
    refine List.sum_le_sum ?_
    intro page _
    refine (List.length_filterMap_le _ _).trans ?_
    rw [List.length_range']
    exact Nat.sub_le _ _
  rw [PageHeapTable.scan]
  rw [h.scanLoop_eq visit _ _ (by rw [hstart]; omega), hstart]

/-! ## Whole histories of a heap -/

/-- The calls a heap user makes, through whatever handle. -/
inductive HeapCall where
  | insert (record : Bytes)
  | read (recordId : RecordId)
  | delete (recordId : RecordId)
  | scan

inductive HeapReply where
  | inserted (reply : Result RecordId)
  | record (reply : Result RecordView)
  | deleted (reply : Result Unit)
  | scanned (reply : Result (List RecordView))

def heapStep (heap : PageHeapTable) : HeapCall → HeapReply × PageHeapTable
  | .insert record => (.inserted (heap.insert record).1, (heap.insert record).2)
  | .read recordId => (.record (heap.read recordId), heap)
  | .delete recordId => (.deleted (heap.delete recordId).1, (heap.delete recordId).2)
  | .scan => (.scanned (heap.scan .ok), heap)

/-- The finite map a user expects. -/
abbrev RecordMap := Finmap fun _ : RecordId => Bytes

/-- The expected map replayed from the calls and their replies: a successful
    insert binds the returned id to the given bytes, a successful delete
    unbinds the given id, and nothing else changes a binding. -/
def trackHeap (live : RecordMap) : HeapCall × HeapReply → RecordMap
  | (.insert record, .inserted (.ok id)) => live.insert id record
  | (.delete id, .deleted (.ok _)) => live.erase id
  | _ => live

/-- A heap of the given root that holds exactly the given bindings. -/
def PageHeapTable.Represents (root : Nat) (heap : PageHeapTable) (live : RecordMap) : Prop :=
  heap.WellFormed ∧ heap.rootPageId = root ∧ ∀ id, heap.lookup id = live.lookup id

/-- One call keeps heap and expected map together. -/
theorem heapStep_represents {root : Nat} (heap : PageHeapTable) (live : RecordMap)
    (call : HeapCall) (h : heap.Represents root live) :
    (heapStep heap call).2.Represents root
      (trackHeap live (call, (heapStep heap call).1)) := by
  obtain ⟨hwf, hroot, hmap⟩ := h
  cases call with
  | insert record =>
      rcases hwf.insert_spec record with ⟨id, heap', heq, hins, -⟩ | ⟨st, heq, -⟩
      · rw [heapStep, heq]
        refine ⟨hins.wellFormed, hins.root.trans hroot, ?_⟩
        intro i
        -- heap and map change at one id only, the same one
        show heap'.lookup i = (live.insert id record).lookup i
        rw [hins.lookup]
        by_cases hi : i = id
        · subst hi
          rw [Function.update_self, Finmap.lookup_insert]
        · rw [Function.update_of_ne hi, Finmap.lookup_insert_of_ne _ hi, hmap]
      · rw [heapStep, heq]
        exact ⟨hwf, hroot, hmap⟩
  | read id => exact ⟨hwf, hroot, hmap⟩
  | delete id =>
      by_cases hlive : heap.lookup id = none
      · obtain ⟨message, heq⟩ := (hwf.delete_spec id).2 hlive
        rw [heapStep, heq]
        exact ⟨hwf, hroot, hmap⟩
      · obtain ⟨heap', heq, hwf', hup, hroot', -⟩ := (hwf.delete_spec id).1 hlive
        rw [heapStep, heq]
        refine ⟨hwf', hroot'.trans hroot, ?_⟩
        intro i
        show heap'.lookup i = (live.erase id).lookup i
        rw [hup]
        by_cases hi : i = id
        · subst hi
          rw [Function.update_self, Finmap.lookup_erase]
        · rw [Function.update_of_ne hi, Finmap.lookup_erase_ne hi, hmap]
  | scan => exact ⟨hwf, hroot, hmap⟩

/-- What a heap that stands for the map `live` answers to the next call. -/
structure PageHeapTable.Serves (heap : PageHeapTable) (live : RecordMap) : Prop where
  read_live : ∀ id record, live.lookup id = some record → heap.read id = .ok ⟨id, record⟩
  read_dead : ∀ id, id ∉ live → ∃ message, heap.read id = errorResult .notFound message
  delete_live : ∀ id, id ∈ live → (heap.delete id).1 = .ok ()
  delete_dead : ∀ id, id ∉ live →
    ∃ message, heap.delete id = (errorResult .notFound message, heap)
  insert_fresh : ∀ record id, (heap.insert record).1 = .ok id → id ∉ live
  insert_failed : ∀ record st, (heap.insert record).1 = .error st →
    (heap.insert record).2 = heap
  /-- A scan ends, lists its records in strictly increasing order, hence none
      twice, and lists exactly the live ones. -/
  scan : ∃ views, heap.scan .ok = .ok views ∧ views.Pairwise RecordView.Before
    ∧ ∀ view, view ∈ views ↔ live.lookup view.id = some view.bytes
  count : heap.recordCount = live.keys.card
  page_ids : ∀ i page, heap.pages[i]? = some page →
    page.header.pageId = heap.rootPageId + i ∧ page.header.pageId ≠ kInvalidPageId
      ∧ page.header.pageId < 2 ^ 64
  ids_distinct : (heap.pages.map fun page => page.header.pageId).Nodup

/-- A well-formed heap serves the map it holds. -/
theorem PageHeapTable.WellFormed.serves (h : heap.WellFormed) {live : RecordMap}
    (hmap : ∀ id, heap.lookup id = live.lookup id) : heap.Serves live := by
  have hdead : ∀ id, id ∉ live ↔ heap.lookup id = none := fun id => by
    rw [hmap, Finmap.lookup_eq_none]
  refine ⟨?_, ?_, ?_, ?_, ?_, ?_, ?_, ?_, ?_, ?_⟩
  · intro id record hid
    exact (h.read_spec id).1 record ((hmap id).trans hid)
  · intro id hid
    exact (h.read_spec id).2 ((hdead id).mp hid)
  · intro id hid
    obtain ⟨heap', heq, -⟩ := (h.delete_spec id).1 (fun hnone => (hdead id).mpr hnone hid)
    rw [heq]
  · intro id hid
    exact (h.delete_spec id).2 ((hdead id).mp hid)
  · intro record id hid
    rcases h.insert_spec record with ⟨id', heap', heq, hins, -⟩ | ⟨st, heq, -⟩
    · rw [heq] at hid
      cases hid
      exact (hdead id).mpr hins.fresh
    · rw [heq] at hid
      exact nomatch hid
  · intro record st hst
    rcases h.insert_spec record with ⟨id', heap', heq, -, -⟩ | ⟨st', heq, -⟩
    · rw [heq] at hst
      exact nomatch hst
    · rw [heq]
  · refine ⟨heap.records, ?_, h.records_sorted, ?_⟩
    · rw [h.scan_eq]
      exact mapM_eq_self fun _ _ => rfl
    · intro view
      rw [h.mem_records, hmap]
  · -- the ids of the listed records are exactly the live ids, each once
    have hnodup : (heap.records.map RecordView.id).Nodup := by
      refine List.pairwise_map.mpr (h.records_sorted.imp ?_)
      rintro a b hab heq
      rcases hab with hlt | ⟨-, hlt⟩ <;> rw [heq] at hlt <;> exact Nat.lt_irrefl _ hlt
    have hkeys : live.keys = (heap.records.map RecordView.id).toFinset := by
      ext id
      rw [Finmap.mem_keys, Finmap.mem_iff, List.mem_toFinset, List.mem_map]
      constructor
      · rintro ⟨record, hrec⟩
        exact ⟨⟨id, record⟩, h.mem_records.mpr ((hmap id).trans hrec), rfl⟩
      · rintro ⟨view, hview, rfl⟩
        exact ⟨view.bytes, (hmap view.id).symm.trans (h.mem_records.mp hview)⟩
    rw [PageHeapTable.recordCount, h.counted, hkeys, List.toFinset_card_of_nodup hnodup,
      List.length_map]
  · intro i page hget
    have hi := (List.getElem?_eq_some_iff.mp hget).1
    have hids := h.ids_valid
    have hid := (h.page_ok i page hget).2.1
    unfold kInvalidPageId at hids ⊢
    refine ⟨hid, ?_, ?_⟩ <;> omega
  · rw [List.nodup_iff_pairwise_ne, List.pairwise_map, List.pairwise_iff_getElem]
    intro i j hi hj hij
    rw [(h.page_ok i _ (List.getElem?_eq_getElem hi)).2.1,
      (h.page_ok j _ (List.getElem?_eq_getElem hj)).2.1]
    omega

/-- An empty heap. -/
theorem PageHeapTable.wellFormed_empty {root : Nat} (hroot : root < kInvalidPageId)
    (pageSize : Nat) : PageHeapTable.WellFormed { rootPageId := root, pageSize := pageSize } :=
  ⟨⟨hroot, hroot.le, nofun⟩, rfl⟩

/-- **A HEAP TABLE IS A FINITE MAP**: after any calls on a new heap with any
    valid root and any page size, the heap serves exactly the map replayed
    from the replies. -/
theorem pageHeapTable_finite_map (root pageSize : Nat) (hroot : root < kInvalidPageId)
    (calls : List HeapCall) :
    (Run.final heapStep { rootPageId := root, pageSize := pageSize } calls).Serves
      ((Run.trace heapStep { rootPageId := root, pageSize := pageSize } calls).foldl
        trackHeap ∅)
    ∧ (Run.final heapStep { rootPageId := root, pageSize := pageSize } calls).rootPageId
        = root := by
  obtain ⟨hwf, hroot', hmap⟩ :=
    Run.final_refines (fun heap live call => heapStep_represents heap live call) calls
      { rootPageId := root, pageSize := pageSize } ∅
      (⟨PageHeapTable.wellFormed_empty hroot pageSize, rfl, fun id => by
        simp [PageHeapTable.lookup]⟩ :
        PageHeapTable.Represents root { rootPageId := root, pageSize := pageSize } ∅)
  exact ⟨hwf.serves hmap, hroot'⟩

/-- Pages of sixteen bytes from the last root that leaves two page ids. -/
theorem pageHeapTable_finite_map_sixteen_bytes :
    (Run.final heapStep { rootPageId := kInvalidPageId - 2, pageSize := 16 }
      [.insert [1, 2, 3], .insert [4, 5, 6, 7], .delete ⟨kInvalidPageId - 2, 0⟩,
        .insert [8, 9], .scan]).Serves
      ((Run.trace heapStep { rootPageId := kInvalidPageId - 2, pageSize := 16 }
        [.insert [1, 2, 3], .insert [4, 5, 6, 7], .delete ⟨kInvalidPageId - 2, 0⟩,
          .insert [8, 9], .scan]).foldl trackHeap ∅) :=
  (pageHeapTable_finite_map (kInvalidPageId - 2) 16 (by decide) _).1

end MattSql
