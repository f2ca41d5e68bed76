import Mathlib.Data.Prod.Lex
import MattSql.HeapInsertProofs
import MattSql.Library.SweepProofs

/-! # A cursor over a heap that changes

    `PageHeapTable::Cursor` keeps a page index and a slot number while inserts
    and deletes go on through any handle of the heap: pages are appended,
    tombstoned slots before and behind the cursor are used again.

    Record ids in page and slot order are the keys of a sweep, and those below
    the cursor's position are passed.  `Next` returns the first live record at
    or behind the position, or there is none (`next_cases`); the other calls
    leave the position alone.  What holds over whole runs is then the sweep's. -/

namespace MattSql

variable {heap : PageHeapTable} {cursor : Cursor}

/-- Record ids in the order of a scan. -/
def RecordId.key (id : RecordId) : ℕ ×ₗ ℕ := toLex (id.pageId, id.slotId)

theorem RecordId.key_inj {id id' : RecordId} (h : id.key = id'.key) : id = id' := by
  obtain ⟨page, slot⟩ := id
  obtain ⟨page', slot'⟩ := id'
  cases h
  rfl

theorem RecordId.key_lt_iff {a b : RecordView} : a.id.key < b.id.key ↔ a.Before b := by
  unfold RecordId.key RecordView.Before
  rw [Prod.Lex.toLex_lt_toLex]

/-- Where the cursor stands in a heap with the given root. -/
def Cursor.position (root : Nat) (cursor : Cursor) : ℕ ×ₗ ℕ :=
  toLex (root + cursor.pageIndex, cursor.slotId)

/-! ## Moving forward -/

theorem nextInPage_le (page : Page) (remaining slotId : Nat) :
    slotId ≤ (nextInPage page remaining slotId).2 := by
  induction remaining generalizing slotId with
  | zero => exact Nat.le_refl _
  | succ remaining ih =>
      rw [nextInPage]
      cases page.read slotId with
      | ok record => exact Nat.le_succ _
      | error st =>
          dsimp only
          split
          · exact Nat.le_trans (Nat.le_succ _) (ih (slotId + 1))
          · exact Nat.le_succ _

/-- `Next` never moves back. -/
theorem nextInPages_position_le (root : Nat) (pages : List Page) (cursor : Cursor) :
    cursor.position root ≤ (nextInPages pages cursor).2.position root := by
  induction pages generalizing cursor with
  | nil => exact le_refl _
  | cons page rest ih =>
      rw [nextInPages]
      have hslot := nextInPage_le page (page.slotCount - cursor.slotId) cursor.slotId
      cases hnext : nextInPage page (page.slotCount - cursor.slotId) cursor.slotId with
      | mk found slotId =>
          rw [hnext] at hslot
          cases found with
          | some record => exact Prod.Lex.toLex_le_toLex.mpr (Or.inr ⟨rfl, hslot⟩)
          | none =>
              refine le_trans ?_ (ih ⟨cursor.pageIndex + 1, 0⟩)
              exact Prod.Lex.toLex_le_toLex.mpr (Or.inl (Nat.lt_succ_self _))

/-! ## What is left -/

/-- The records left are the live ones at or behind the position. -/
theorem PageHeapTable.Sound.mem_recordsAfter (h : heap.Sound) {view : RecordView} :
    view ∈ recordsAfter cursor (heap.pages.drop cursor.pageIndex)
      ↔ heap.lookup view.id = some view.bytes
        ∧ cursor.position heap.rootPageId ≤ view.id.key := by
  rw [PageHeapTable.lookup_eq_some_iff, Cursor.position, RecordId.key, Prod.Lex.toLex_le_toLex]
  dsimp only
  cases hdrop : heap.pages.drop cursor.pageIndex with
  | nil =>
      -- the cursor is behind the last page
      have hlen : heap.pages.length ≤ cursor.pageIndex := List.drop_eq_nil_iff.mp hdrop
      constructor
      · intro hmem
        cases hmem
      · rintro ⟨⟨i, page, hget, hid, -⟩, hle⟩
        have hlt := (List.getElem?_eq_some_iff.mp hget).1
        omega
  | cons page rest =>
      have hget : heap.pages[cursor.pageIndex]? = some page := by
        rw [← Nat.add_zero cursor.pageIndex, ← List.getElem?_drop, hdrop]
        rfl
      -- page `j` of the rest is a later page of the heap
      have hrest : ∀ j, rest[j]? = heap.pages[cursor.pageIndex + (j + 1)]? := by
        intro j
        rw [← List.getElem?_drop, hdrop]
        rfl
      obtain ⟨hwf, hpage, -⟩ := h.page_ok _ page hget
      show view ∈ page.recordsFrom cursor.slotId ++ pageRecords rest ↔ _
      rw [List.mem_append, Page.mem_recordsFrom hwf, pageRecords, List.mem_flatMap]
      constructor
      · rintro (⟨hslot, hid, hrec⟩ | ⟨q, hmem, hview⟩)
        · exact ⟨⟨_, page, hget, hid.trans hpage, hrec⟩, Or.inr ⟨(hid.trans hpage).symm, hslot⟩⟩
        · obtain ⟨j, hj⟩ := List.getElem?_of_mem hmem
          rw [hrest] at hj
          obtain ⟨hwf', hpage', -⟩ := h.page_ok _ q hj
          obtain ⟨-, hid, hrec⟩ := (Page.mem_recordsFrom hwf').mp hview
          exact ⟨⟨_, q, hj, hid.trans hpage', hrec⟩, Or.inl (by omega)⟩
      · rintro ⟨⟨i, q, hq, hid, hrec⟩, hlt | ⟨heq, hslot⟩⟩
        · -- on a later page
          obtain ⟨hwf', hpage', -⟩ := h.page_ok i q hq
          obtain ⟨j, rfl⟩ : ∃ j, i = cursor.pageIndex + (j + 1) :=
            ⟨i - cursor.pageIndex - 1, by omega⟩
          rw [← hrest] at hq
          refine Or.inr ⟨q, List.mem_of_getElem? hq, ?_⟩
          exact (Page.mem_recordsFrom hwf').mpr ⟨Nat.zero_le _, hid.trans hpage'.symm, hrec⟩
        · -- on the cursor's own page
          obtain rfl : i = cursor.pageIndex := by omega
          cases hget.symm.trans hq
          exact Or.inl ⟨hslot, hid.trans hpage.symm, hrec⟩

theorem Page.recordsFrom_sublist (page : Page) (start : Nat) :
    (page.recordsFrom start).Sublist (page.recordsFrom 0) := by
  rw [Page.recordsFrom]
  refine List.Sublist.filterMap _ ?_
  by_cases hle : start ≤ page.slotCount
  · have hsplit : List.range' 0 start ++ List.range' (0 + start) (page.slotCount - start)
        = List.range' 0 (start + (page.slotCount - start)) := List.range'_append_1
    rw [Nat.zero_add, Nat.add_sub_cancel' hle] at hsplit
    rw [Nat.sub_zero, ← hsplit]
    exact List.sublist_append_right _ _
  · rw [Nat.sub_eq_zero_of_le (Nat.le_of_not_le hle)]
    exact List.nil_sublist _

theorem PageHeapTable.Sound.recordsAfter_nodup (h : heap.Sound) (cursor : Cursor) :
    (recordsAfter cursor (heap.pages.drop cursor.pageIndex)).Nodup := by
  refine List.Nodup.sublist ?_ h.records_nodup
  have hsuffix : (pageRecords (heap.pages.drop cursor.pageIndex)).Sublist heap.records :=
    (List.drop_sublist _ _).flatMap _
  refine List.Sublist.trans ?_ hsuffix
  cases heap.pages.drop cursor.pageIndex with
  | nil => exact List.Sublist.refl _
  | cons page rest => exact (page.recordsFrom_sublist _).append (List.Sublist.refl _)

/-! ## Next -/

/-- `Next` returned a record: it is the only live one that is passed over. -/
structure Cursor.Found (heap : PageHeapTable) (cursor : Cursor) (view : RecordView)
    (cursor' : Cursor) : Prop where
  current : heap.lookup view.id = some view.bytes
  unpassed : cursor.position heap.rootPageId ≤ view.id.key
  passed : view.id.key < cursor'.position heap.rootPageId
  only : ∀ id, heap.lookup id ≠ none → id.key < cursor'.position heap.rootPageId →
    id.key < cursor.position heap.rootPageId ∨ id = view.id

/-- **NEXT** on a sound heap returns the next live record or ends behind the
    last one. -/
theorem PageHeapTable.Sound.next_cases (h : heap.Sound) (cursor : Cursor) :
    (∃ view cursor', cursor.next heap = (.ok view, cursor') ∧ cursor.Found heap view cursor')
    ∨ ∃ message cursor', cursor.next heap = (errorResult .notFound message, cursor')
      ∧ ∀ id, heap.lookup id ≠ none → id.key < cursor.position heap.rootPageId := by
  have hwf : ∀ page ∈ heap.pages.drop cursor.pageIndex, page.WellFormed :=
    fun page hmem => h.page_wellFormed page (List.mem_of_mem_drop hmem)
  have hnodup := h.recordsAfter_nodup cursor
  -- a live record that is not passed is left
  have hleft : ∀ (c : Cursor) (id : RecordId), heap.lookup id ≠ none →
      ¬ id.key < c.position heap.rootPageId →
      ∃ bytes, (⟨id, bytes⟩ : RecordView) ∈ recordsAfter c (heap.pages.drop c.pageIndex) := by
    intro c id hlive hnot
    obtain ⟨bytes, hbytes⟩ := Option.ne_none_iff_exists'.mp hlive
    exact ⟨bytes, h.mem_recordsAfter.mpr ⟨hbytes, not_lt.mp hnot⟩⟩
  rcases nextInPages_spec _ hwf cursor with
    ⟨hnil, message, cursor', hnext⟩ | ⟨view, rest, cursor', k, hcons, hnext, hk, hrest⟩
  · refine Or.inr ⟨message, cursor', hnext, ?_⟩
    intro id hlive
    by_contra hnot
    obtain ⟨bytes, hmem⟩ := hleft cursor id hlive hnot
    rw [hnil] at hmem
    cases hmem
  · rw [List.drop_drop, ← hk] at hrest
    obtain ⟨hcurrent, hunpassed⟩ : heap.lookup view.id = some view.bytes
        ∧ cursor.position heap.rootPageId ≤ view.id.key :=
      h.mem_recordsAfter.mp (by rw [hcons]; exact List.mem_cons_self)
    rw [hcons] at hnodup
    refine Or.inl ⟨view, cursor', hnext, hcurrent, hunpassed, ?_, ?_⟩
    · -- it is not left, since no record is listed twice
      by_contra hnot
      obtain ⟨bytes, hmem⟩ := hleft cursor' view.id (by rw [hcurrent]; exact Option.some_ne_none _)
        hnot
      obtain ⟨hbytes, -⟩ := h.mem_recordsAfter.mp hmem
      rw [hcurrent] at hbytes
      cases hbytes
      rw [hrest] at hmem
      exact (List.nodup_cons.mp hnodup).1 hmem
    · intro id hlive hpassed
      by_cases hbefore : id.key < cursor.position heap.rootPageId
      · exact Or.inl hbefore
      · obtain ⟨bytes, hmem⟩ := hleft cursor id hlive hbefore
        rw [hcons] at hmem
        rcases List.mem_cons.mp hmem with heq | hmore
        · exact Or.inr (congrArg RecordView.id heq)
        · rw [← hrest] at hmore
          exact absurd hpassed (not_lt.mpr (h.mem_recordsAfter.mp hmore).2)

section Kept

variable {root pageSize : Nat}

theorem PageHeapTable.lookup_no_pages (hpages : heap.pages = []) (id : RecordId) :
    heap.lookup id = none := by
  rw [PageHeapTable.lookup]
  rw [hpages]
  split
  · rfl
  · rfl

/-- The same on every heap that a run from a new one reaches. -/
theorem PageHeapTable.Kept.next_cases (h : heap.Kept root pageSize) (cursor : Cursor) :
    (∃ view cursor', cursor.next heap = (.ok view, cursor') ∧ cursor.Found heap view cursor')
    ∨ ∃ message cursor', cursor.next heap = (errorResult .notFound message, cursor')
      ∧ ∀ id, heap.lookup id ≠ none → id.key < cursor.position heap.rootPageId := by
  rcases h.shape with hwf | ⟨-, hpages⟩
  · exact hwf.toSound.next_cases cursor
  · refine Or.inr ⟨ascii "end of heap scan", cursor, ?_, ?_⟩
    · rw [Cursor.next]
      rw [hpages, List.drop_nil]
      rfl
    · intro id hlive
      exact absurd (PageHeapTable.lookup_no_pages hpages id) hlive

/-- A record is read exactly when it is bound. -/
theorem PageHeapTable.Kept.read_ok_iff (h : heap.Kept root pageSize) {id : RecordId}
    {view : RecordView} :
    heap.read id = .ok view ↔ view.id = id ∧ heap.lookup id = some view.bytes := by
  obtain ⟨id', bytes⟩ := view
  rcases h.shape with hwf | ⟨-, hpages⟩
  · cases hlookup : heap.lookup id with
    | none =>
        obtain ⟨message, hread⟩ := (hwf.read_spec id).2 hlookup
        rw [hread]
        constructor
        · intro heq
          cases heq
        · rintro ⟨-, hbytes⟩
          cases hbytes
    | some record =>
        rw [(hwf.read_spec id).1 record hlookup]
        constructor
        · intro heq
          cases heq
          exact ⟨rfl, rfl⟩
        · rintro ⟨rfl, heq⟩
          cases heq
          rfl
  · -- a heap without a usable root has no page to read from
    rw [PageHeapTable.lookup_no_pages hpages]
    have hread : heap.read id = errorResult .notFound (ascii "heap page not found") := by
      rw [PageHeapTable.read, PageHeapTable.findPage]
      rw [hpages]
      rfl
    rw [hread]
    constructor
    · intro heq
      cases heq
    · rintro ⟨-, hbytes⟩
      cases hbytes

end Kept

/-! ## Runs -/

/-- A heap with one cursor over it; a new cursor is what `Scan` returns. -/
structure HeapScan where
  heap : PageHeapTable
  cursor : Cursor := {}

/-- `Next` on the cursor, or a call through any handle of the heap. -/
inductive CursorCall where
  | next
  | heap (call : HeapCall)

inductive CursorReply where
  | next (reply : Result RecordView)
  | heap (reply : HeapReply)

def cursorStep (s : HeapScan) : CursorCall → CursorReply × HeapScan
  | .next => (.next (s.cursor.next s.heap).1, { s with cursor := (s.cursor.next s.heap).2 })
  | .heap call => (.heap (heapStep s.heap call).1, { s with heap := (heapStep s.heap call).2 })

/-- The record that a call returned to the cursor's user. -/
def returnedView : CursorCall × CursorReply → Option RecordView
  | (.next, .next (.ok view)) => some view
  | _ => none

/-- What a call means for the sweep. -/
def cursorEvent : CursorCall × CursorReply → Run.SweepEvent (ℕ ×ₗ ℕ)
  | (.next, .next (.ok view)) => .found view.id.key
  | (.next, .next (.error _)) => .ended
  | _ => .other

theorem foundKeys_cursorEvent (calls : List (CursorCall × CursorReply)) :
    Run.foundKeys cursorEvent calls = (calls.filterMap returnedView).map fun view => view.id.key := by
  rw [Run.foundKeys]
  rw [List.map_filterMap]
  refine List.filterMap_congr fun call _ => ?_
  obtain ⟨call, reply⟩ := call
  cases call with
  | heap call => rfl
  | next =>
      cases reply with
      | heap reply => rfl
      | next reply =>
          cases reply with
          | ok view => rfl
          | error st => rfl

/-- The keys of the live records. -/
def HeapScan.live (s : HeapScan) : Set (ℕ ×ₗ ℕ) :=
  {key | ∃ id : RecordId, id.key = key ∧ s.heap.lookup id ≠ none}

/-- **THE CURSOR SWEEPS** over the live records of its heap. -/
theorem cursorStep_sweeps (root pageSize : Nat) :
    Run.Sweeps cursorStep cursorEvent HeapScan.live (fun s => Set.Iio (s.cursor.position root))
      (fun s => s.heap.Kept root pageSize) := by
  refine ⟨?_, fun s _ => isLowerSet_Iio _, ?_, ?_, ?_⟩
  · -- the heap is kept by every call
    intro s call h
    cases call with
    | next => exact h
    | heap call => exact heapStep_kept s.heap call h
  · -- only `Next` moves the cursor
    intro s call h hevent
    cases call with
    | heap call => rfl
    | next =>
        exfalso
        cases hnext : (s.cursor.next s.heap).1 with
        | ok view =>
            rw [cursorStep, hnext] at hevent
            cases hevent
        | error st =>
            rw [cursorStep, hnext] at hevent
            cases hevent
  · -- a record found is the first live one that was not passed
    intro s call key h hevent
    cases call with
    | heap call => cases hevent
    | next =>
        have hmono := nextInPages_position_le root (s.heap.pages.drop s.cursor.pageIndex) s.cursor
        rcases h.next_cases s.cursor with
          ⟨view, cursor', hnext, hfound⟩ | ⟨message, cursor', hnext, -⟩
        · rw [cursorStep, hnext] at hevent
          cases hevent
          rw [← Cursor.next, hnext] at hmono
          rw [cursorStep, hnext]
          obtain ⟨hcurrent, hunpassed, hpassed, honly⟩ := hfound
          rw [h.root] at hunpassed hpassed honly
          refine ⟨⟨view.id, rfl, by rw [hcurrent]; exact Option.some_ne_none _⟩,
            not_lt.mpr hunpassed, hpassed, Set.Iio_subset_Iio hmono, ?_⟩
          rintro k ⟨id, rfl, hlive⟩ hk
          rcases honly id hlive hk with hbefore | heq
          · exact Or.inl hbefore
          · exact Or.inr (congrArg RecordId.key heq)
        · rw [cursorStep, hnext] at hevent
          cases hevent
  · -- `NotFound`: every live record was passed
    intro s call h hevent
    cases call with
    | heap call => cases hevent
    | next =>
        have hmono := nextInPages_position_le root (s.heap.pages.drop s.cursor.pageIndex) s.cursor
        rcases h.next_cases s.cursor with
          ⟨view, cursor', hnext, -⟩ | ⟨message, cursor', hnext, hall⟩
        · rw [cursorStep, hnext] at hevent
          cases hevent
        · rw [← Cursor.next, hnext] at hmono
          rw [cursorStep, hnext]
          refine ⟨?_, Set.Iio_subset_Iio hmono⟩
          rintro k ⟨id, rfl, hlive⟩
          rw [h.root] at hall
          exact hall id hlive

/-- What the user of a cursor sees over a run of calls, from the `Scan` on. -/
structure CursorExact (start : PageHeapTable) (calls : List CursorCall) : Prop where
  increasing : ((Run.trace cursorStep ⟨start, {}⟩ calls).filterMap returnedView).Pairwise
    RecordView.Before
  /-- A `Next` at any point of the run returns a record that is live there, with
      its bytes, or `NotFound`. -/
  current : ∀ n s, s = Run.final cursorStep ⟨start, {}⟩ (calls.take n) →
    (∃ view, (s.cursor.next s.heap).1 = .ok view ∧ s.heap.read view.id = .ok view)
      ∨ ∃ message, (s.cursor.next s.heap).1 = errorResult .notFound message
  /-- When a `Next` behind the run answers `NotFound`, every record that was
      live all along was returned once. -/
  stable : ∀ id,
    (∀ n ≤ calls.length,
      ∃ view, (Run.final cursorStep ⟨start, {}⟩ (calls.take n)).heap.read id = .ok view) →
    (∀ s, s = Run.final cursorStep ⟨start, {}⟩ calls →
      ∃ message, (s.cursor.next s.heap).1 = errorResult .notFound message) →
    (((Run.trace cursorStep ⟨start, {}⟩ calls).filterMap returnedView).map (·.id)).count id = 1

/-- **CURSOR**: over any heap that a user can have, and whatever is inserted and
    deleted through its handles between the calls to `Next`, the ids returned
    increase, each record returned is live with exactly its bytes, and every
    record that stays live until the cursor answers `NotFound` was returned
    exactly once. -/
theorem pageHeapTable_cursor_exact (root pageSize : Nat) (hroot : root < 2 ^ 64)
    (before : List HeapCall) (calls : List CursorCall) :
    CursorExact (Run.final heapStep (PageHeapTable.new root pageSize) before) calls := by
  generalize hstart : Run.final heapStep (PageHeapTable.new root pageSize) before = start
  have hkept : start.Kept root pageSize := hstart ▸ heapRun_kept hroot pageSize before
  have hsweeps := cursorStep_sweeps root pageSize
  have hrun : ∀ is, (Run.final cursorStep ⟨start, {}⟩ is).heap.Kept root pageSize :=
    fun is => Run.final_invariant hsweeps.kept is ⟨start, {}⟩ hkept
  have hincreasing := hsweeps.increasing calls ⟨start, {}⟩ hkept
  rw [foundKeys_cursorEvent, List.pairwise_map] at hincreasing
  have hbefore : ((Run.trace cursorStep ⟨start, {}⟩ calls).filterMap returnedView).Pairwise
      RecordView.Before := hincreasing.imp fun hlt => RecordId.key_lt_iff.mp hlt
  refine ⟨hbefore, ?_, ?_⟩
  · rintro n s rfl
    have hs := hrun (calls.take n)
    rcases hs.next_cases (Run.final cursorStep ⟨start, {}⟩ (calls.take n)).cursor with
      ⟨view, cursor', hnext, hfound⟩ | ⟨message, cursor', hnext, -⟩
    · rw [hnext]
      exact Or.inl ⟨view, rfl, hs.read_ok_iff.mpr ⟨rfl, hfound.current⟩⟩
    · rw [hnext]
      exact Or.inr ⟨message, rfl⟩
  · intro id hlive hend
    obtain ⟨message, hnotFound⟩ := hend _ rfl
    have hids : (((Run.trace cursorStep ⟨start, {}⟩ calls).filterMap returnedView).map
        (·.id)).Nodup := by
      rw [List.Nodup, List.pairwise_map]
      refine hincreasing.imp ?_
      intro a b hlt heq
      rw [heq] at hlt
      exact lt_irrefl _ hlt
    -- nothing is passed at the start, and all that is live at the end
    have hstays : ∀ n ≤ calls.length,
        id.key ∈ (Run.final cursorStep ⟨start, {}⟩ (calls.take n)).live := by
      intro n hn
      obtain ⟨view, hread⟩ := hlive n hn
      obtain ⟨-, hlookup⟩ := (hrun (calls.take n)).read_ok_iff.mp hread
      exact ⟨id, rfl, by rw [hlookup]; exact Option.some_ne_none _⟩
    have hunpassed : id.key ∉ Set.Iio (({} : Cursor).position root) := by
      obtain ⟨view, hread⟩ := hlive 0 (Nat.zero_le _)
      obtain ⟨-, hlookup⟩ := hkept.read_ok_iff.mp hread
      obtain ⟨i, page, -, hpage, -⟩ := PageHeapTable.lookup_eq_some_iff.mp hlookup
      rw [hkept.root] at hpage
      rw [Set.mem_Iio, not_lt]
      refine Prod.Lex.toLex_le_toLex.mpr ?_
      show root < id.pageId ∨ root = id.pageId ∧ 0 ≤ id.slotId
      omega
    have hall : ∀ s, s = Run.final cursorStep ⟨start, {}⟩ calls →
        s.live ⊆ Set.Iio (s.cursor.position root) := by
      rintro s rfl
      have hs := hrun calls
      rcases hs.next_cases (Run.final cursorStep ⟨start, {}⟩ calls).cursor with
        ⟨view, cursor', hnext, -⟩ | ⟨_, cursor', -, hpassed⟩
      · rw [hnext] at hnotFound
        cases hnotFound
      · rintro k ⟨id', rfl, hlive'⟩
        rw [hs.root] at hpassed
        exact hpassed id' hlive'
    have hfound := (hsweeps.covers calls ⟨start, {}⟩ hkept hstays (hall _ rfl)).resolve_left
      hunpassed
    rw [foundKeys_cursorEvent] at hfound
    obtain ⟨view, hview, hkey⟩ := List.mem_map.mp hfound
    exact List.count_eq_one_of_mem hids (List.mem_map.mpr ⟨view, hview, RecordId.key_inj hkey⟩)

/-- An insert takes the tombstone of a record that the cursor returned and one
    behind it; the record between them stays. -/
theorem pageHeapTable_cursor_exact_reuse :
    CursorExact
      (Run.final heapStep (PageHeapTable.new 7 64) [.insert [1], .insert [2], .insert [3]])
      [.next, .heap (.delete ⟨7, 0⟩), .heap (.insert [4]), .next, .heap (.delete ⟨7, 2⟩),
        .heap (.insert [5]), .next] :=
  pageHeapTable_cursor_exact 7 64 (by decide) _ _

end MattSql
