import MattSql.PageHeapProofs

/-! # When a heap takes a record

    `PageHeapTable::Insert` tries the existing pages in order, then appends
    one.  `pageHeapTable_insert_exact` gives the exact condition under which a
    heap takes a record, the page it takes it on, and that a refusal changes
    nothing, for every heap a user can have: the root id and the page size of a
    heap are never checked when it is made, so both may be unusable.

    A heap with the invalid root never gets a page (`insert_rootless`); every
    other heap stays well formed. -/

namespace MattSql

variable {heap : PageHeapTable} {record : Bytes}

/-- A new heap. -/
def PageHeapTable.new (root pageSize : Nat) : PageHeapTable :=
  { rootPageId := root, pageSize := pageSize }

/-- What every run from a new heap keeps. -/
structure PageHeapTable.Kept (root pageSize : Nat) (heap : PageHeapTable) : Prop where
  root : heap.rootPageId = root
  size : heap.pageSize = pageSize
  shape : heap.WellFormed ∨ heap.rootPageId = kInvalidPageId ∧ heap.pages = []

/-- A heap with the invalid root and without pages takes nothing. -/
theorem PageHeapTable.insert_rootless (hroot : heap.rootPageId = kInvalidPageId)
    (hpages : heap.pages = []) (record : Bytes) :
    ∃ st, heap.insert record = (.error st, heap) := by
  have hloop : insertFirstFit record heap.pages = (none, heap.pages) := by
    rw [hpages]
    rfl
  have halloc : heap.allocatePage
      = (errorResult .invalidArgument (ascii "heap root page id is invalid"), heap) :=
    if_pos hroot
  refine ⟨⟨.invalidArgument, ascii "heap root page id is invalid"⟩, ?_⟩
  rw [PageHeapTable.insert]
  rw [hloop]
  dsimp only
  rw [halloc]
  rfl

theorem PageHeapTable.delete_rootless (hpages : heap.pages = []) (id : RecordId) :
    (heap.delete id).2 = heap := by
  rw [PageHeapTable.delete, PageHeapTable.findPage]
  rw [hpages]
  rfl

/-- One call of a heap user. -/
theorem heapStep_kept {root pageSize : Nat} (heap : PageHeapTable) (call : HeapCall)
    (h : heap.Kept root pageSize) : (heapStep heap call).2.Kept root pageSize := by
  cases call with
  | read id => exact h
  | scan => exact h
  | insert record =>
      rcases h.shape with hwf | ⟨hroot, hpages⟩
      · rcases hwf.insert_spec record with ⟨id, heap', heq, hins, -⟩ | ⟨st, heq, -⟩
        · rw [heapStep, heq]
          exact ⟨hins.root.trans h.root, hins.pageSize.trans h.size, Or.inl hins.wellFormed⟩
        · rw [heapStep, heq]
          exact h
      · obtain ⟨st, heq⟩ := PageHeapTable.insert_rootless hroot hpages record
        rw [heapStep, heq]
        exact h
  | delete id =>
      rcases h.shape with hwf | ⟨hroot, hpages⟩
      · by_cases hlive : heap.lookup id = none
        · obtain ⟨message, heq⟩ := (hwf.delete_spec id).2 hlive
          rw [heapStep, heq]
          exact h
        · obtain ⟨heap', heq, hwf', -, hroot, hsize⟩ := (hwf.delete_spec id).1 hlive
          rw [heapStep, heq]
          exact ⟨hroot.trans h.root, hsize.trans h.size, Or.inl hwf'⟩
      · rw [heapStep, PageHeapTable.delete_rootless hpages]
        exact h

/-- Every heap reached from a new one with a 64-bit root id. -/
theorem heapRun_kept {root : Nat} (hroot : root < 2 ^ 64) (pageSize : Nat)
    (calls : List HeapCall) :
    (Run.final heapStep (PageHeapTable.new root pageSize) calls).Kept root pageSize := by
  refine Run.final_invariant heapStep_kept calls _ ⟨rfl, rfl, ?_⟩
  by_cases hvalid : root < kInvalidPageId
  · exact Or.inl (PageHeapTable.wellFormed_empty hvalid pageSize)
  · refine Or.inr ⟨?_, rfl⟩
    show root = kInvalidPageId
    unfold kInvalidPageId at hvalid ⊢
    omega

/-- A page takes the record. -/
def Page.Accepts (page : Page) (record : Bytes) : Prop :=
  ∃ slot, (page.insert record).1 = .ok slot

theorem Page.accepts_iff {page : Page} (h : page.WellFormed) :
    page.Accepts record ↔ page.Fits record := by
  constructor
  · rintro ⟨slot, hslot⟩
    exact ((Page.insert_ok_iff h).mp hslot).1
  · intro hfit
    exact ⟨page.target, (Page.insert_ok_iff h).mpr ⟨hfit, rfl⟩⟩

/-- What an insert into the heap does, exactly. -/
structure PageHeapTable.InsertExact (root pageSize : Nat) (heap : PageHeapTable)
    (record : Bytes) : Prop where
  succeeds_iff : (∃ id, (heap.insert record).1 = .ok id)
    ↔ (∃ page ∈ heap.pages, page.Accepts record)
      ∨ root ≠ kInvalidPageId ∧ 1 ≤ pageSize ∧ pageSize ≤ 65535
        ∧ record.length + 6 ≤ pageSize ∧ root + heap.pages.length ≤ kInvalidPageId - 1
  /-- The first page that takes the record gets it, and no other page is
      touched. -/
  takes_first : ∀ i page slot, heap.pages[i]? = some page → (page.insert record).1 = .ok slot →
    (∀ j < i, ∀ q, heap.pages[j]? = some q → ¬ q.Accepts record) →
    heap.insert record
      = (.ok ⟨page.header.pageId, slot⟩,
          { heap with
            pages := heap.pages.set i (page.insert record).2
            activeRecords := heap.activeRecords + 1 })
  /-- Only when no page takes it is a page appended. -/
  appends : (∀ page ∈ heap.pages, ¬ page.Accepts record) →
    ∀ id, (heap.insert record).1 = .ok id →
      id.pageId = root + heap.pages.length
      ∧ ∃ fresh, (heap.insert record).2
          = { heap with
              pages := heap.pages ++ [fresh]
              activeRecords := heap.activeRecords + 1 }
        ∧ fresh.read id.slotId = .ok ⟨id, record⟩
  failed : ∀ st, (heap.insert record).1 = .error st → (heap.insert record).2 = heap

/-- Without a usable root. -/
theorem PageHeapTable.insertExact_rootless (hroot : heap.rootPageId = kInvalidPageId)
    (hpages : heap.pages = []) : heap.InsertExact kInvalidPageId heap.pageSize record := by
  obtain ⟨st, heq⟩ := PageHeapTable.insert_rootless hroot hpages record
  have hfails : ∀ id, (heap.insert record).1 ≠ .ok id := by
    intro id hid
    rw [heq] at hid
    cases hid
  refine ⟨⟨?_, ?_⟩, ?_, ?_, ?_⟩
  · rintro ⟨id, hid⟩
    exact absurd hid (hfails id)
  · rintro (⟨page, hmem, -⟩ | ⟨hne, -⟩)
    · rw [hpages] at hmem
      exact absurd hmem List.not_mem_nil
    · exact absurd rfl hne
  · intro i page slot hget
    rw [hpages] at hget
    cases hget
  · intro _ id hid
    exact absurd hid (hfails id)
  · intro st' _
    rw [heq]

/-- With one. -/
theorem PageHeapTable.WellFormed.insertExact (h : heap.WellFormed) (record : Bytes) :
    heap.InsertExact heap.rootPageId heap.pageSize record := by
  have hvalid := h.root_valid
  have haccepts : ∀ page ∈ heap.pages, (page.Accepts record ↔ page.Fits record) :=
    fun page hmem => Page.accepts_iff (h.page_wellFormed page hmem)
  have hfails : (∀ page ∈ heap.pages, ¬ page.Fits record) →
      ¬ (heap.rootPageId + heap.pages.length < kInvalidPageId ∧ heap.pageSize ≤ 65535
        ∧ record.length + 6 ≤ heap.pageSize) → ∃ st, heap.insert record = (.error st, heap) := by
    intro hnone hno
    obtain ⟨st, heq, -⟩ := h.insert_refused hnone hno
    exact ⟨st, heq⟩
  refine ⟨⟨?_, ?_⟩, ?_, ?_, ?_⟩
  · -- were neither side true, the insert would be refused
    rintro ⟨id, hid⟩
    by_contra hno
    rw [not_or] at hno
    obtain ⟨st, heq⟩ := hfails
      (fun page hmem hfit => hno.1 ⟨page, hmem, (haccepts page hmem).mpr hfit⟩)
      (fun hcan => hno.2 ⟨hvalid.ne, by omega, hcan.2.1, hcan.2.2, by omega⟩)
    rw [heq] at hid
    cases hid
  · intro hcan
    -- an existing page is tried before a new one
    by_cases hexists : ∃ page ∈ heap.pages, page.Fits record
    · obtain ⟨i, page, hget, hfit, hfirst⟩ := exists_first_fit hexists
      rw [h.insert_existing hget hfit hfirst]
      exact ⟨_, rfl⟩
    · rcases hcan with ⟨page, hmem, hacc⟩ | ⟨-, -, hmax, hsize, hroom⟩
      · exact absurd ⟨page, hmem, (haccepts page hmem).mp hacc⟩ hexists
      · obtain ⟨fresh, heq, -⟩ := h.insert_appending
          (fun page hmem hfit => hexists ⟨page, hmem, hfit⟩) (by omega) hmax hsize
        rw [heq]
        exact ⟨_, rfl⟩
  · intro i page slot hget hslot hfirst
    have hwf := h.page_wellFormed page (List.mem_of_getElem? hget)
    obtain ⟨hfit, rfl⟩ := (Page.insert_ok_iff hwf).mp hslot
    rw [Page.insert_fits hwf.header hfit]
    refine h.insert_existing hget hfit ?_
    intro j hj q hq hfits
    exact hfirst j hj q hq ((haccepts q (List.mem_of_getElem? hq)).mpr hfits)
  · -- no page took it, so the id is the one of the appended page
    intro hnone id hid
    have hnofit : ∀ page ∈ heap.pages, ¬ page.Fits record :=
      fun page hmem hfit => hnone page hmem ((haccepts page hmem).mpr hfit)
    by_cases hcan : heap.rootPageId + heap.pages.length < kInvalidPageId
        ∧ heap.pageSize ≤ 65535 ∧ record.length + 6 ≤ heap.pageSize
    · obtain ⟨fresh, heq, hwf, hfit, -, -, hpage⟩ :=
        h.insert_appending hnofit hcan.1 hcan.2.1 hcan.2.2
      rw [heq] at hid ⊢
      cases hid
      refine ⟨rfl, fresh.inserted record, rfl, ?_⟩
      have hread := (Page.read_eq (Page.inserted_wellFormed hwf hfit) fresh.target).1 record
        (by rw [Page.inserted_lookup hwf hfit, Function.update_self])
      rw [hread]
      show Except.ok (⟨⟨fresh.header.pageId, fresh.target⟩, record⟩ : RecordView) = _
      rw [hpage]
    · obtain ⟨st, heq⟩ := hfails hnofit hcan
      rw [heq] at hid
      cases hid
  · intro st hst
    rcases h.insert_spec record with ⟨id, heap', heq, -⟩ | ⟨st', heq, -⟩
    · rw [heq] at hst
      cases hst
    · rw [heq]

/-- **INSERT, EXACTLY**: in every state of a heap with any 64-bit root id and
    any page size, a record is taken exactly when some page takes it or a page
    that can be appended would; the first page that takes it gets it; a page is
    appended only when none does; and a refusal changes nothing. -/
theorem pageHeapTable_insert_exact (root pageSize : Nat) (hroot : root < 2 ^ 64)
    (calls : List HeapCall) (record : Bytes) :
    (Run.final heapStep (PageHeapTable.new root pageSize) calls).InsertExact root pageSize
      record := by
  obtain ⟨hr, hs, hshape⟩ := heapRun_kept hroot pageSize calls
  rcases hshape with hwf | ⟨hinvalid, hpages⟩
  · have hexact := hwf.insertExact record
    rw [hr, hs] at hexact
    exact hexact
  · have hexact := @PageHeapTable.insertExact_rootless _ record hinvalid hpages
    rw [hs, ← hinvalid, hr] at hexact
    exact hexact

/-- A page size above what 16-bit offsets support, and a heap whose one page id
    is used up. -/
theorem pageHeapTable_insert_exact_bounds :
    PageHeapTable.InsertExact 7 65536
        (Run.final heapStep (PageHeapTable.new 7 65536) [.insert [1], .scan]) [1, 2]
    ∧ PageHeapTable.InsertExact (kInvalidPageId - 1) 16
        (Run.final heapStep (PageHeapTable.new (kInvalidPageId - 1) 16)
          [.insert [1, 2, 3, 4, 5, 6, 7, 8, 9, 10]]) [1, 2] :=
  ⟨pageHeapTable_insert_exact 7 65536 (by decide) _ [1, 2],
    pageHeapTable_insert_exact (kInvalidPageId - 1) 16 (by decide) _ [1, 2]⟩

end MattSql
