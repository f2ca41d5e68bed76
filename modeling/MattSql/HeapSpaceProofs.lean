import Mathlib.Algebra.Group.Action.Defs
import MattSql.HeapInsertProofs
import MattSql.Library.FirstFitProofs

/-! # The space of a heap

    Pages are bins that are filled first fit, and what a page has given away
    never comes back: a deletion leaves the record's bytes and its directory
    entry where they are.

    `pageHeapTable_space` accounts for every byte of a heap in terms of the
    records it ever accepted, and bounds the number of its pages: any two
    pages together have less than one page free, so that less than twice the
    space that the records need is ever allocated. -/

namespace MattSql

open FirstFit

/-! ## Pages -/

/-- The bytes of a page that are given away. -/
def Page.load (page : Page) : Nat := page.header.lower + (page.bytes.length - page.header.upper)

variable {page : Page} {record : Bytes}

theorem Page.WellFormed.freeSpace_add_load (h : page.WellFormed) :
    page.freeSpace + page.load = page.bytes.length := by
  have hordered := h.ordered
  have hbounded := h.bounded
  rw [Page.freeSpace, h.validate, Page.load]
  dsimp only
  omega

theorem Page.slotSpace_le (page : Page) : page.slotSpace ≤ 6 := by
  rw [Page.slotSpace]
  split <;> omega

/-- A record costs its bytes, and six more for a new directory entry. -/
theorem Page.WellFormed.inserted_load (h : page.WellFormed) (hfit : page.Fits record) :
    (page.inserted record).load = page.load + page.slotSpace + record.length := by
  have hordered := h.ordered
  have hbounded := h.bounded
  have hlength := Page.inserted_length h.header hfit
  rw [Page.Fits] at hfit
  rw [Page.load, Page.load, hlength]
  show page.header.lower + page.slotSpace
    + (page.bytes.length - (page.header.upper - record.length)) = _
  omega

theorem Page.WellFormed.inserted_slotCount (h : page.WellFormed) (hfit : page.Fits record) :
    6 * (page.inserted record).slotCount = 6 * page.slotCount + page.slotSpace := by
  have hafter := Page.inserted_wellFormed h hfit
  have hlower := hafter.lower_eq
  rw [h.slotCount_eq, hafter.slotCount_eq, ← h.lower_eq, ← hlower]
  rfl

/-- A page that does not take a record has less room than it needs. -/
theorem Page.WellFormed.full_load (h : page.WellFormed) (hfull : ¬ page.Fits record) :
    page.bytes.length < page.load + (6 + record.length) := by
  have hordered := h.ordered
  have hbounded := h.bounded
  have hspace := page.slotSpace_le
  rw [Page.Fits] at hfull
  rw [Page.load]
  omega

theorem Page.WellFormed.deleted_load (h : page.WellFormed) {slot : Nat} (hlive : page.Live slot) :
    (page.deleted slot).load = page.load := by
  rw [Page.load, Page.deleted_length h.header hlive]
  rfl

theorem Page.WellFormed.deleted_slotCount (h : page.WellFormed) {slot : Nat}
    (hlive : page.Live slot) : (page.deleted slot).slotCount = page.slotCount := by
  rw [h.slotCount_eq, (Page.deleted_wellFormed h hlive).slotCount_eq]
  rfl

/-! ## Heaps -/

/-- The records that were accepted, the last one first. -/
def trackAccepted (accepted : List Bytes) : HeapCall × HeapReply → List Bytes
  | (.insert record, .inserted (.ok _)) => record :: accepted
  | _ => accepted

/-- The records accepted in a run. -/
def acceptedIn (heap : PageHeapTable) (calls : List HeapCall) : List Bytes :=
  (Run.trace heapStep heap calls).foldl trackAccepted []

/-- What a heap makes of its space. -/
structure PageHeapTable.SpaceExact (heap : PageHeapTable) (accepted : List Bytes) : Prop where
  /-- A byte is free, belongs to a directory entry, or to a record accepted at
      some time, deleted or not. -/
  accounted : (heap.pages.map Page.freeSpace).sum + 6 * (heap.pages.map Page.slotCount).sum
    + (accepted.map List.length).sum = heap.pages.length * heap.pageSize
  /-- No two pages could be one. -/
  crowded : heap.pages.Pairwise fun page page' => page.freeSpace + page'.freeSpace < heap.pageSize
  /-- Less than twice the space is allocated that the records need. -/
  bounded : 2 ≤ heap.pages.length →
    heap.pages.length * heap.pageSize < 2 * (accepted.map fun record => 6 + record.length).sum

/-- The same by loads, as the calls keep it. -/
structure PageHeapTable.Spends (heap : PageHeapTable) (accepted : List Bytes) : Prop where
  total : (heap.pages.map Page.load).sum
    = 6 * (heap.pages.map Page.slotCount).sum + (accepted.map List.length).sum
  slots : (heap.pages.map Page.slotCount).sum ≤ accepted.length
  crowded : Crowded heap.pageSize (heap.pages.map Page.load)

variable {heap : PageHeapTable} {accepted : List Bytes}

/-- A page that took a record. -/
theorem PageHeapTable.Spends.taken (h : heap.Spends accepted) (hsound : heap.Sound) {i : Nat}
    (hget : heap.pages[i]? = some page) (hfit : page.Fits record) (count : Nat) :
    PageHeapTable.Spends
      { heap with pages := heap.pages.set i (page.inserted record), activeRecords := count }
      (record :: accepted) := by
  obtain ⟨hwf, -⟩ := hsound.page_ok i page hget
  have hload := hwf.inserted_load hfit
  have hcount := hwf.inserted_slotCount hfit
  have hspace := page.slotSpace_le
  have hgetLoad : (heap.pages.map Page.load)[i]? = some page.load := by
    rw [List.getElem?_map, hget, Option.map_some]
  have hgetCount : (heap.pages.map Page.slotCount)[i]? = some page.slotCount := by
    rw [List.getElem?_map, hget, Option.map_some]
  have hloads := @sum_set_add _ _ _ _ _ (page.inserted record).load hgetLoad
  have hcounts := @sum_set_add _ _ _ _ _ (page.inserted record).slotCount hgetCount
  have htotal := h.total
  have hslots := h.slots
  constructor
  · rw [List.map_set, List.map_set, List.map_cons, List.sum_cons]
    omega
  · rw [List.map_set, List.length_cons]
    omega
  · rw [List.map_set]
    exact h.crowded.set hgetLoad (by omega)

/-- A page that was appended for a record. -/
theorem PageHeapTable.Spends.appended (h : heap.Spends accepted) (hsound : heap.Sound)
    (hnone : ∀ page ∈ heap.pages, ¬ page.Fits record) (hwf : page.WellFormed)
    (hfit : page.Fits record) (hlower : page.header.lower = 0)
    (hupper : page.header.upper = page.bytes.length) (count : Nat) :
    PageHeapTable.Spends
      { heap with pages := heap.pages ++ [page.inserted record], activeRecords := count }
      (record :: accepted) := by
  have hspace : page.slotSpace = 6 := by
    have hnew := hwf.lower_eq
    rw [Page.slotSpace, if_neg]
    intro hdeleted
    obtain ⟨slot, hslot⟩ := Option.isSome_iff_exists.mp hdeleted
    obtain ⟨hlt, -⟩ := findDeletedSlot_some hslot
    omega
  have hload : (page.inserted record).load = 6 + record.length := by
    rw [hwf.inserted_load hfit, Page.load, hspace]
    omega
  have hcount : (page.inserted record).slotCount = 1 := by
    have hafter := hwf.inserted_slotCount hfit
    have hbefore := hwf.lower_eq
    rw [hwf.slotCount_eq] at hafter
    omega
  have htotal := h.total
  have hslots := h.slots
  constructor
  · rw [List.map_append, List.map_append, List.sum_append, List.sum_append, List.map_singleton,
      List.map_singleton, List.sum_singleton, List.sum_singleton, hload, hcount, List.map_cons,
      List.sum_cons]
    omega
  · rw [List.map_append, List.sum_append, List.map_singleton, List.sum_singleton, hcount,
      List.length_cons]
    omega
  · rw [List.map_append, List.map_singleton, hload]
    refine h.crowded.concat ?_
    intro load hmem
    obtain ⟨other, hother, rfl⟩ := List.mem_map.mp hmem
    obtain ⟨i, hget⟩ := List.getElem?_of_mem hother
    obtain ⟨hother', -, hsize⟩ := hsound.page_ok i other hget
    rw [← hsize]
    exact hother'.full_load (hnone other hother)

/-- A page with one record less. -/
theorem PageHeapTable.Spends.deleted (h : heap.Spends accepted) (hsound : heap.Sound) {i slot : Nat}
    (hget : heap.pages[i]? = some page) (hlive : page.Live slot) (count : Nat) :
    PageHeapTable.Spends
      { heap with pages := heap.pages.set i (page.deleted slot), activeRecords := count }
      accepted := by
  obtain ⟨hwf, -⟩ := hsound.page_ok i page hget
  -- as many bytes and entries are given away as before
  have hsame {f : Page → Nat} (hf : f (page.deleted slot) = f page) :
      (heap.pages.set i (page.deleted slot)).map f = heap.pages.map f := by
    rw [List.map_set, hf]
    obtain ⟨hi, rfl⟩ := List.getElem?_eq_some_iff.mp hget
    rw [← List.getElem_map f, List.set_getElem_self]
    rwa [List.length_map]
  have hloads := hsame (hwf.deleted_load hlive)
  have hcounts := hsame (hwf.deleted_slotCount hlive)
  constructor
  · rw [hloads, hcounts]
    exact h.total
  · rw [hcounts]
    exact h.slots
  · rw [hloads]
    exact h.crowded

/-! ## Runs -/

/-- A deletion marks a live slot of one page, or changes nothing. -/
theorem PageHeapTable.Sound.delete_cases (h : heap.Sound) (id : RecordId) :
    (heap.delete id).2 = heap
      ∨ ∃ i page count, heap.pages[i]? = some page ∧ page.Live id.slotId
        ∧ (heap.delete id).2
          = { heap with
              pages := heap.pages.set i (page.deleted id.slotId), activeRecords := count } := by
  rw [PageHeapTable.delete]
  rcases h.findPage id.pageId with ⟨i, page, hget, -, hfind⟩ | ⟨hfind, -⟩
  · obtain ⟨hwf, -⟩ := h.page_ok i page hget
    rw [hfind]
    dsimp only
    by_cases hlive : page.Live id.slotId
    · rw [Page.delete_live hwf hlive]
      exact .inr ⟨i, page, _, hget, hlive, rfl⟩
    · obtain ⟨message, hdead⟩ := Page.delete_dead hwf hlive
      obtain ⟨hi, rfl⟩ := List.getElem?_eq_some_iff.mp hget
      rw [hdead]
      dsimp only [errorResult]
      rw [List.set_getElem_self]
      exact .inl rfl
  · rw [hfind]
    exact .inl rfl

/-- An insert on a well-formed heap. -/
theorem PageHeapTable.Spends.insert (h : heap.Spends accepted) (hwf : heap.WellFormed)
    (record : Bytes) :
    (heapStep heap (.insert record)).2.Spends
      (trackAccepted accepted (.insert record, (heapStep heap (.insert record)).1)) := by
  rw [heapStep]
  by_cases hexists : ∃ page ∈ heap.pages, page.Fits record
  · obtain ⟨i, page, hget, hfit, hfirst⟩ := exists_first_fit hexists
    rw [hwf.insert_existing hget hfit hfirst]
    exact h.taken hwf.toSound hget hfit _
  have hnone : ∀ page ∈ heap.pages, ¬ page.Fits record :=
    fun page hmem hfit => hexists ⟨page, hmem, hfit⟩
  by_cases hcan : heap.rootPageId + heap.pages.length < kInvalidPageId
      ∧ heap.pageSize ≤ 65535 ∧ record.length + 6 ≤ heap.pageSize
  · obtain ⟨fresh, heq, hfresh, hfit, -, hlen, -, hlower, hupper⟩ :=
      hwf.insert_fresh hnone hcan.1 hcan.2.1 hcan.2.2
    rw [heq]
    exact h.appended hwf.toSound hnone hfresh hfit hlower (hupper.trans hlen.symm) _
  · obtain ⟨st, heq, -⟩ := hwf.insert_refused hnone hcan
    rw [heq]
    exact h

/-- One call of a heap user. -/
theorem heapStep_spends {root pageSize : Nat} (heap : PageHeapTable) (accepted : List Bytes)
    (call : HeapCall) (h : heap.Kept root pageSize ∧ heap.Spends accepted) :
    (heapStep heap call).2.Kept root pageSize
      ∧ (heapStep heap call).2.Spends (trackAccepted accepted (call, (heapStep heap call).1)) := by
  obtain ⟨hkept, hspends⟩ := h
  refine ⟨heapStep_kept heap call hkept, ?_⟩
  cases call with
  | read id => exact hspends
  | scan => exact hspends
  | insert record =>
      rcases hkept.shape with hwf | ⟨hroot, hpages⟩
      · exact hspends.insert hwf record
      · obtain ⟨st, heq⟩ := PageHeapTable.insert_rootless hroot hpages record
        rw [heapStep, heq]
        exact hspends
  | delete id =>
      have htrack : trackAccepted accepted (.delete id, (heapStep heap (.delete id)).1)
          = accepted := rfl
      rw [htrack, heapStep]
      rcases hkept.shape with hwf | ⟨-, hpages⟩
      · rcases hwf.delete_cases id with heq | ⟨i, page, count, hget, hlive, heq⟩
        · rw [heq]
          exact hspends
        · rw [heq]
          exact hspends.deleted hwf.toSound hget hlive count
      · rw [PageHeapTable.delete_rootless hpages]
        exact hspends

theorem PageHeapTable.Spends.exact (h : heap.Spends accepted)
    (hpages : ∀ page ∈ heap.pages, page.WellFormed ∧ page.bytes.length = heap.pageSize) :
    heap.SpaceExact accepted := by
  have hfree : ∀ page ∈ heap.pages, page.freeSpace + page.load = heap.pageSize := by
    intro page hmem
    obtain ⟨hwf, hsize⟩ := hpages page hmem
    rw [hwf.freeSpace_add_load, hsize]
  have htotal := h.total
  have hslots := h.slots
  refine ⟨?_, ?_, ?_⟩
  · have hsum : (heap.pages.map Page.freeSpace).sum + (heap.pages.map Page.load).sum
        = heap.pages.length * heap.pageSize := by
      rw [← List.sum_map_add, List.map_congr_left hfree, List.map_const', List.sum_replicate,
        smul_eq_mul]
    omega
  · refine (List.pairwise_map.mp h.crowded).imp_of_mem ?_
    intro page page' hmem hmem' hover
    have := hfree page hmem
    have := hfree page' hmem'
    omega
  · intro hlen
    have hhalf := h.crowded.nsmul_length_lt (by rwa [List.length_map])
    rw [List.length_map, smul_eq_mul, smul_eq_mul] at hhalf
    have hcost : (accepted.map fun record => 6 + record.length).sum
        = accepted.length * 6 + (accepted.map List.length).sum := by
      rw [List.sum_map_add, List.map_const', List.sum_replicate, smul_eq_mul]
    omega

/-- **THE SPACE OF A HEAP**, for every root id, page size and run: each byte is
    accounted for by the records that were ever accepted, no two pages could be
    one, and less than twice the needed space is allocated. -/
theorem pageHeapTable_space (root pageSize : Nat) (hroot : root < 2 ^ 64)
    (calls : List HeapCall) :
    (Run.final heapStep (PageHeapTable.new root pageSize) calls).SpaceExact
      (acceptedIn (PageHeapTable.new root pageSize) calls) := by
  have hempty : (PageHeapTable.new root pageSize).Spends [] :=
    ⟨rfl, Nat.le_refl _, crowded_nil⟩
  have hnew : (PageHeapTable.new root pageSize).Kept root pageSize := heapRun_kept hroot pageSize []
  obtain ⟨hkept, hspends⟩ := Run.final_refines heapStep_spends calls _ [] ⟨hnew, hempty⟩
  refine hspends.exact ?_
  rcases hkept.shape with hwf | ⟨-, hpages⟩
  · intro page hmem
    obtain ⟨i, hget⟩ := List.getElem?_of_mem hmem
    obtain ⟨hpage, -, hsize⟩ := hwf.page_ok i page hget
    exact ⟨hpage, hsize⟩
  · rw [hpages]
    exact nofun

theorem pageHeapTable_space_two_pages :
    (Run.final heapStep (PageHeapTable.new 0 16)
        [.insert [1, 2, 3], .insert [4, 5], .delete ⟨0, 0⟩, .insert [6]]).SpaceExact
      [[6], [4, 5], [1, 2, 3]] :=
  pageHeapTable_space 0 16 (by decide)
    [.insert [1, 2, 3], .insert [4, 5], .delete ⟨0, 0⟩, .insert [6]]

end MattSql
