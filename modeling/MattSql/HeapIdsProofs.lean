import MattSql.TableStorageProofs
import MattSql.Library.FiniteMapProofs
import MattSql.Library.RunProofs

/-! # Page ids of different heaps

    The storage manager hands out root page ids in order, and every heap
    counts its own pages up from its root (`Impl::next_page_id`).  Nothing
    keeps the two apart: the second page of a heap has the root id of the heap
    created after it.

    `heaps_apart_iff` says exactly which runs keep the page ids of different
    heaps apart.  At every point of such a run only the heap created last has
    more than one page. -/

namespace MattSql

open FiniteMap

/-! ## Calls on one storage manager -/

/-- Calls on a manager and on the heaps opened from it.  A handle shares the
    stored heap, and a stored heap keeps its root and is never removed, so a
    call on a handle that was opened earlier is a call on one opened now. -/
inductive StorageCall where
  | createHeap (table : TableInfo)
  | insert (reference : TableStorageReference) (record : Bytes)
  | delete (reference : TableStorageReference) (recordId : RecordId)

inductive StorageReply where
  | created (reply : Result Nat)
  | inserted (reply : Result RecordId)
  | deleted (reply : Result Unit)

def storageStep (storage : InMemoryTableStorageManager) :
    StorageCall → StorageReply × InMemoryTableStorageManager
  | .createHeap table => (.created (storage.createHeap table).1, (storage.createHeap table).2)
  | .insert reference record =>
    match storage.openHeap reference with
    | .error st => (.inserted (.error st), storage)
    | .ok heap =>
      (.inserted (heap.insert record).1,
        storage.storeHeap reference.tableId (heap.insert record).2)
  | .delete reference recordId =>
    match storage.openHeap reference with
    | .error st => (.deleted (.error st), storage)
    | .ok heap =>
      (.deleted (heap.delete recordId).1,
        storage.storeHeap reference.tableId (heap.delete recordId).2)

/-- The ids of the pages a heap holds. -/
def PageHeapTable.pageIds (heap : PageHeapTable) : List Nat :=
  heap.pages.map fun page => page.header.pageId

/-- No page id names pages of two heaps: their page ids are disjoint, the root
    of one is not a page of another, and a record id that one heap reads is
    not a live record of another. -/
structure InMemoryTableStorageManager.HeapsApart (storage : InMemoryTableStorageManager) :
    Prop where
  pages : ∀ a b dataA dataB, a ≠ b → storage.tables.lookup a = some dataA →
    storage.tables.lookup b = some dataB → dataA.heap.pageIds.Disjoint dataB.heap.pageIds
  roots : ∀ a b dataA dataB, a ≠ b → storage.tables.lookup a = some dataA →
    storage.tables.lookup b = some dataB → dataA.rootPageId ∉ dataB.heap.pageIds
  records : ∀ a b dataA dataB, a ≠ b → storage.tables.lookup a = some dataA →
    storage.tables.lookup b = some dataB →
    ∀ id view, dataA.heap.read id = .ok view → ∀ view', dataB.heap.read id ≠ .ok view'

/-! ## How many pages a heap has -/

variable {heap : PageHeapTable} {record : Bytes}

/-- An insert of the record needs a page the heap does not have yet: no page
    has room for it, an empty page has, and there is a page id left. -/
structure PageHeapTable.OpensPage (heap : PageHeapTable) (record : Bytes) : Prop where
  full : ∀ page ∈ heap.pages, ¬ page.Fits record
  size : record.length + kSlotEntrySize ≤ heap.pageSize
  room : heap.rootPageId + heap.pages.length < kInvalidPageId

/-- An insert that does not need another page keeps the number of pages. -/
theorem PageHeapTable.WellFormed.insert_length_of_not_opensPage (h : heap.WellFormed)
    (hopen : ¬ heap.OpensPage record) :
    (heap.insert record).2.pages.length = heap.pages.length := by
  by_cases hexists : ∃ page ∈ heap.pages, page.Fits record
  · obtain ⟨i, page, hget, hfit, hfirst⟩ := exists_first_fit hexists
    rw [h.insert_existing hget hfit hfirst]
    exact List.length_set
  · have hnone : ∀ page ∈ heap.pages, ¬ page.Fits record :=
      fun page hmem hfit => hexists ⟨page, hmem, hfit⟩
    obtain ⟨st, heq, -⟩ := h.insert_refused hnone fun hcan => hopen ⟨hnone, hcan.2.2, hcan.1⟩
    rw [heq]

/-- An insert that needs another page adds one. -/
theorem PageHeapTable.WellFormed.insert_length_of_opensPage (h : heap.WellFormed)
    (hsize : heap.pageSize = kDefaultPageSize) (hopen : heap.OpensPage record) :
    (heap.insert record).2.pages.length = heap.pages.length + 1 := by
  obtain ⟨fresh, heq, -⟩ := h.insert_appending hopen.full hopen.room
    (by rw [hsize]; decide) hopen.size
  rw [heq]
  exact List.length_append

/-- A delete keeps the number of pages. -/
theorem PageHeapTable.delete_length (heap : PageHeapTable) (id : RecordId) :
    (heap.delete id).2.pages.length = heap.pages.length := by
  rw [PageHeapTable.delete]
  cases heap.findPage id.pageId with
  | none => rfl
  | some entry =>
      obtain ⟨page, index⟩ := entry
      dsimp only
      cases hdel : page.delete id.slotId with
      | mk reply page' => cases reply <;> exact List.length_set

/-! ## The roots in use -/

variable {storage : InMemoryTableStorageManager}

/-- What every run keeps: the roots handed out are exactly those below the
    counter, each for one table, and the heaps are well formed. -/
structure InMemoryTableStorageManager.Rooted (storage : InMemoryTableStorageManager) : Prop where
  next_pos : 1 ≤ storage.nextRootPageId
  next_le : storage.nextRootPageId ≤ kInvalidPageId
  root_lt : ∀ id data, storage.tables.lookup id = some data →
    data.rootPageId < storage.nextRootPageId
  root_unique : ∀ a b dataA dataB, storage.tables.lookup a = some dataA →
    storage.tables.lookup b = some dataB → dataA.rootPageId = dataB.rootPageId → a = b
  root_used : ∀ root, 1 ≤ root → root < storage.nextRootPageId →
    ∃ id data, storage.tables.lookup id = some data ∧ data.rootPageId = root
  root_pos : ∀ id data, storage.tables.lookup id = some data → 1 ≤ data.rootPageId
  heap_root : ∀ id data, storage.tables.lookup id = some data →
    data.heap.rootPageId = data.rootPageId
  heap_ok : ∀ id data, storage.tables.lookup id = some data →
    data.heap.WellFormed ∧ data.heap.pageSize = kDefaultPageSize

theorem InMemoryTableStorageManager.rooted_empty : InMemoryTableStorageManager.Rooted {} := by
  have hnone : ∀ id data,
      ({} : InMemoryTableStorageManager).tables.lookup id ≠ some data := by
    intro id data h
    rw [show ({} : InMemoryTableStorageManager).tables = ∅ from rfl, Finmap.lookup_empty] at h
    cases h
  refine ⟨Nat.le_refl 1, by decide, ?_, ?_, ?_, ?_, ?_, ?_⟩
  · intro id data h
    exact absurd h (hnone id data)
  · intro a b dataA dataB h
    exact absurd h (hnone a dataA)
  · intro root hpos hlt
    have hlt' : root < 1 := hlt
    omega
  all_goals
    intro id data h
    exact absurd h (hnone id data)

/-- `CreateHeap` that succeeds. -/
theorem InMemoryTableStorageManager.createHeap_ok {table : TableInfo}
    (hle : storage.nextRootPageId ≤ kInvalidPageId) (hid : table.id ∉ storage.tables)
    (hnext : storage.nextRootPageId ≠ kInvalidPageId) :
    storage.createHeap table
      = (.ok storage.nextRootPageId,
        { nextRootPageId := storage.nextRootPageId + 1
          tables := storage.tables.insert table.id
            { tableId := table.id
              rootPageId := storage.nextRootPageId
              heap := { rootPageId := storage.nextRootPageId } } }) := by
  have hsmall : storage.nextRootPageId + 1 < 2 ^ 64 := by
    rw [kInvalidPageId] at hle hnext
    omega
  rw [InMemoryTableStorageManager.createHeap]
  rw [if_neg hid, if_neg hnext, Nat.mod_eq_of_lt hsmall]

/-- `CreateHeap` that fails leaves the store as it is. -/
theorem InMemoryTableStorageManager.createHeap_failed {table : TableInfo}
    (h : ¬ (table.id ∉ storage.tables ∧ storage.nextRootPageId ≠ kInvalidPageId)) :
    (storage.createHeap table).2 = storage := by
  rw [InMemoryTableStorageManager.createHeap]
  by_cases hid : table.id ∈ storage.tables
  · rw [if_pos hid]
  · rw [if_neg hid, if_pos (not_not.mp fun hnext => h ⟨hid, hnext⟩)]

/-- A new heap takes the next root. -/
theorem InMemoryTableStorageManager.Rooted.createHeap (h : storage.Rooted) (table : TableInfo) :
    (storage.createHeap table).2.Rooted := by
  by_cases hcan : table.id ∉ storage.tables ∧ storage.nextRootPageId ≠ kInvalidPageId
  swap
  · rw [InMemoryTableStorageManager.createHeap_failed hcan]
    exact h
  obtain ⟨hid, hnext⟩ := hcan
  -- the root is the next number, above every root in use
  have hlt : storage.nextRootPageId < kInvalidPageId := lt_of_le_of_ne h.next_le hnext
  rw [InMemoryTableStorageManager.createHeap_ok h.next_le hid hnext]
  refine ⟨Nat.le_add_left 1 _, hlt, ?_, ?_, ?_, ?_, ?_, ?_⟩
  · intro id data hdata
    dsimp only at hdata ⊢
    rcases lookup_insert_cases hdata with ⟨-, rfl⟩ | ⟨-, hdata⟩
    · exact Nat.lt_succ_self _
    · exact Nat.lt_succ_of_lt (h.root_lt id data hdata)
  · intro a b dataA dataB hA hB hroot
    rcases lookup_insert_cases hA with ⟨rfl, rfl⟩ | ⟨-, hA⟩ <;>
      rcases lookup_insert_cases hB with ⟨rfl, rfl⟩ | ⟨-, hB⟩
    · rfl
    · exact absurd hroot (h.root_lt b dataB hB).ne'
    · exact absurd hroot (h.root_lt a dataA hA).ne
    · exact h.root_unique a b dataA dataB hA hB hroot
  · intro root hpos hroot
    rcases Nat.lt_succ_iff_lt_or_eq.mp hroot with hold | rfl
    · obtain ⟨id, data, hdata, hdata'⟩ := h.root_used root hpos hold
      exact ⟨id, data,
        (Finmap.lookup_insert_of_ne _ (ne_of_lookup_of_notMem hdata hid)).trans hdata, hdata'⟩
    · exact ⟨table.id, _, Finmap.lookup_insert _, rfl⟩
  · intro id data hdata
    rcases lookup_insert_cases hdata with ⟨-, rfl⟩ | ⟨-, hdata⟩
    · exact h.next_pos
    · exact h.root_pos id data hdata
  · intro id data hdata
    rcases lookup_insert_cases hdata with ⟨-, rfl⟩ | ⟨-, hdata⟩
    · rfl
    · exact h.heap_root id data hdata
  · intro id data hdata
    rcases lookup_insert_cases hdata with ⟨-, rfl⟩ | ⟨-, hdata⟩
    · exact ⟨PageHeapTable.wellFormed_empty hlt kDefaultPageSize, rfl⟩
    · exact h.heap_ok id data hdata

/-- A change of one heap that keeps its root and its page size. -/
theorem InMemoryTableStorageManager.Rooted.storeHeap (h : storage.Rooted) {tableId : Nat}
    {data : InMemoryTableData} (hdata : storage.tables.lookup tableId = some data)
    (hwf : heap.WellFormed) (hroot : heap.rootPageId = data.heap.rootPageId)
    (hsize : heap.pageSize = data.heap.pageSize) : (storage.storeHeap tableId heap).Rooted := by
  have hnext : (storage.storeHeap tableId heap).nextRootPageId = storage.nextRootPageId := by
    rw [InMemoryTableStorageManager.storeHeap]
    rw [hdata]
  -- what is found afterwards has the root of what was found before
  have hback : ∀ id data', (storage.storeHeap tableId heap).tables.lookup id = some data' →
      ∃ before, storage.tables.lookup id = some before ∧ data'.rootPageId = before.rootPageId
        ∧ data'.heap.rootPageId = before.heap.rootPageId
        ∧ (data'.heap.WellFormed ∧ data'.heap.pageSize = kDefaultPageSize) := by
    intro id data' hdata'
    rw [InMemoryTableStorageManager.storeHeap_lookup hdata] at hdata'
    by_cases hid : id = tableId
    · subst hid
      rw [if_pos rfl] at hdata'
      cases hdata'
      exact ⟨data, hdata, rfl, hroot, hwf, hsize.trans (h.heap_ok id data hdata).2⟩
    · rw [if_neg hid] at hdata'
      exact ⟨data', hdata', rfl, rfl, h.heap_ok id data' hdata'⟩
  refine ⟨?_, ?_, ?_, ?_, ?_, ?_, ?_, ?_⟩
  · rw [hnext]
    exact h.next_pos
  · rw [hnext]
    exact h.next_le
  · intro id data' hdata'
    obtain ⟨before, hbefore, heq, -⟩ := hback id data' hdata'
    rw [hnext, heq]
    exact h.root_lt id before hbefore
  · intro a b dataA dataB hA hB hroots
    obtain ⟨beforeA, hbeforeA, heqA, -⟩ := hback a dataA hA
    obtain ⟨beforeB, hbeforeB, heqB, -⟩ := hback b dataB hB
    exact h.root_unique a b beforeA beforeB hbeforeA hbeforeB
      (heqA.symm.trans (hroots.trans heqB))
  · intro root hpos hlt
    rw [hnext] at hlt
    obtain ⟨id, before, hbefore, hused⟩ := h.root_used root hpos hlt
    by_cases hid : id = tableId
    · subst hid
      cases hdata.symm.trans hbefore
      refine ⟨id, { data with heap := heap }, ?_, hused⟩
      rw [InMemoryTableStorageManager.storeHeap_lookup hdata, if_pos rfl]
    · refine ⟨id, before, ?_, hused⟩
      rw [InMemoryTableStorageManager.storeHeap_lookup hdata, if_neg hid]
      exact hbefore
  · intro id data' hdata'
    obtain ⟨before, hbefore, heq, -⟩ := hback id data' hdata'
    rw [heq]
    exact h.root_pos id before hbefore
  · intro id data' hdata'
    obtain ⟨before, hbefore, heq, hheap, -⟩ := hback id data' hdata'
    rw [heq, hheap]
    exact h.heap_root id before hbefore
  · intro id data' hdata'
    obtain ⟨-, -, -, -, hok⟩ := hback id data' hdata'
    exact hok

/-! ## Only the last heap grows -/

/-- Every heap but the one created last has at most one page. -/
def InMemoryTableStorageManager.OnlyLastGrows (storage : InMemoryTableStorageManager) : Prop :=
  ∀ id data, storage.tables.lookup id = some data →
    data.rootPageId + 1 < storage.nextRootPageId → data.heap.pages.length ≤ 1

/-- The page ids of a well-formed heap count up from its root. -/
theorem PageHeapTable.WellFormed.mem_pageIds (h : heap.WellFormed) {id : Nat} :
    id ∈ heap.pageIds ↔ heap.rootPageId ≤ id ∧ id < heap.rootPageId + heap.pages.length := by
  rw [PageHeapTable.pageIds]
  rw [List.mem_map]
  constructor
  · rintro ⟨page, hmem, rfl⟩
    obtain ⟨i, hget⟩ := List.getElem?_of_mem hmem
    have hi := (List.getElem?_eq_some_iff.mp hget).1
    rw [(h.page_ok i page hget).2.1]
    omega
  · rintro ⟨hle, hlt⟩
    have hi : id - heap.rootPageId < heap.pages.length := by omega
    have hget := List.getElem?_eq_getElem hi
    refine ⟨_, List.getElem_mem hi, ?_⟩
    rw [(h.page_ok _ _ hget).2.1]
    omega

/-- A record that reads lies on a page of the heap. -/
theorem PageHeapTable.WellFormed.pageId_mem_of_read (h : heap.WellFormed) {id : RecordId}
    {view : RecordView} (hread : heap.read id = .ok view) : id.pageId ∈ heap.pageIds := by
  cases hl : heap.lookup id with
  | none =>
      obtain ⟨message, herror⟩ := (h.read_spec id).2 hl
      rw [herror] at hread
      cases hread
  | some record =>
      obtain ⟨i, page, hget, hid, -⟩ := PageHeapTable.lookup_eq_some_iff.mp hl
      have hi := (List.getElem?_eq_some_iff.mp hget).1
      rw [h.mem_pageIds]
      omega

/-- With the roots handed out in order, heaps are apart exactly when only the
    last of them has grown past one page. -/
theorem InMemoryTableStorageManager.Rooted.heapsApart_iff (h : storage.Rooted) :
    storage.HeapsApart ↔ storage.OnlyLastGrows := by
  constructor
  · intro hapart a dataA hA hlast
    -- the next root belongs to another heap, and so is no page of this one
    obtain ⟨b, dataB, hB, hroot⟩ := h.root_used (dataA.rootPageId + 1) (by omega) hlast
    have hne : b ≠ a := by
      rintro rfl
      cases hA.symm.trans hB
      omega
    have hout := hapart.roots b a dataB dataA hne hB hA
    rw [(h.heap_ok a dataA hA).1.mem_pageIds, h.heap_root a dataA hA, hroot] at hout
    omega
  · intro hgrows
    have hroots : ∀ a b dataA dataB, a ≠ b → storage.tables.lookup a = some dataA →
        storage.tables.lookup b = some dataB → dataA.rootPageId ≠ dataB.rootPageId :=
      fun a b dataA dataB hne hA hB heq => hne (h.root_unique a b dataA dataB hA hB heq)
    have hpages : ∀ a b dataA dataB, a ≠ b → storage.tables.lookup a = some dataA →
        storage.tables.lookup b = some dataB →
        dataA.heap.pageIds.Disjoint dataB.heap.pageIds := by
      intro a b dataA dataB hne hA hB id hidA hidB
      rw [(h.heap_ok a dataA hA).1.mem_pageIds, h.heap_root a dataA hA] at hidA
      rw [(h.heap_ok b dataB hB).1.mem_pageIds, h.heap_root b dataB hB] at hidB
      have hltA := h.root_lt a dataA hA
      have hltB := h.root_lt b dataB hB
      rcases Nat.lt_or_gt_of_ne (hroots a b dataA dataB hne hA hB) with hlt | hlt
      · have := hgrows a dataA hA (by omega)
        omega
      · have := hgrows b dataB hB (by omega)
        omega
    refine ⟨hpages, ?_, ?_⟩
    · intro a b dataA dataB hne hA hB hmem
      rw [(h.heap_ok b dataB hB).1.mem_pageIds, h.heap_root b dataB hB] at hmem
      have hltA := h.root_lt a dataA hA
      have hroot := hroots a b dataA dataB hne hA hB
      have := hgrows b dataB hB (by omega)
      omega
    · intro a b dataA dataB hne hA hB id view hread view' hread'
      exact hpages a b dataA dataB hne hA hB
        ((h.heap_ok a dataA hA).1.pageId_mem_of_read hread)
        ((h.heap_ok b dataB hB).1.pageId_mem_of_read hread')

/-! ## One call -/

/-- The calls that keep heaps apart.  A heap is created only while the one
    created before it has at most one page, and only the heap created last
    opens a second page. -/
def InMemoryTableStorageManager.KeepsApart (storage : InMemoryTableStorageManager) :
    StorageCall → Prop
  | .createHeap table => table.id ∉ storage.tables → storage.nextRootPageId ≠ kInvalidPageId →
    ∀ id data, storage.tables.lookup id = some data →
      data.rootPageId + 1 = storage.nextRootPageId → data.heap.pages.length ≤ 1
  | .insert reference record => ∀ data, storage.tables.lookup reference.tableId = some data →
    reference.rootPageId = data.rootPageId → data.rootPageId + 1 < storage.nextRootPageId →
    data.heap.pages ≠ [] → ¬ data.heap.OpensPage record
  | .delete _ _ => True

/-- `OpenHeap` opens the stored heap of the root, or nothing is stored under
    the id and root. -/
theorem InMemoryTableStorageManager.openHeap_cases (storage : InMemoryTableStorageManager)
    (reference : TableStorageReference) :
    (∃ data, storage.tables.lookup reference.tableId = some data
      ∧ reference.rootPageId = data.rootPageId ∧ storage.openHeap reference = .ok data.heap)
    ∨ ((∀ data, storage.tables.lookup reference.tableId = some data →
          reference.rootPageId ≠ data.rootPageId)
      ∧ ∃ st, storage.openHeap reference = .error st) := by
  cases hfound : storage.tables.lookup reference.tableId with
  | none =>
      refine Or.inr ⟨fun data hdata => (by cases hdata), ?_⟩
      rw [InMemoryTableStorageManager.openHeap]
      rw [if_neg (by cases reference.method; decide), hfound]
      exact ⟨_, rfl⟩
  | some data =>
      by_cases hroot : reference.rootPageId = data.rootPageId
      · exact Or.inl ⟨data, rfl, hroot, InMemoryTableStorageManager.openHeap_ok hfound hroot⟩
      · refine Or.inr ⟨fun other hother => by cases hother; exact hroot, ?_⟩
        rw [InMemoryTableStorageManager.openHeap]
        rw [if_neg (by cases reference.method; decide), hfound]
        dsimp only
        rw [if_pos hroot]
        exact ⟨_, rfl⟩

/-- The heap after an insert keeps its root and its page size. -/
private theorem PageHeapTable.WellFormed.insert_kept (h : heap.WellFormed) (record : Bytes) :
    (heap.insert record).2.WellFormed ∧ (heap.insert record).2.rootPageId = heap.rootPageId
      ∧ (heap.insert record).2.pageSize = heap.pageSize := by
  rcases h.insert_spec record with ⟨id, heap', heq, hins, -⟩ | ⟨st, heq, -⟩
  · rw [heq]
    exact ⟨hins.wellFormed, hins.root, hins.pageSize⟩
  · rw [heq]
    exact ⟨h, rfl, rfl⟩

/-- The heap after a delete keeps its root and its page size. -/
private theorem PageHeapTable.WellFormed.delete_kept (h : heap.WellFormed) (id : RecordId) :
    (heap.delete id).2.WellFormed ∧ (heap.delete id).2.rootPageId = heap.rootPageId
      ∧ (heap.delete id).2.pageSize = heap.pageSize := by
  by_cases hlive : heap.lookup id = none
  · obtain ⟨message, heq⟩ := (h.delete_spec id).2 hlive
    rw [heq]
    exact ⟨h, rfl, rfl⟩
  · obtain ⟨heap', heq, hwf, -, hroot, hsize⟩ := (h.delete_spec id).1 hlive
    rw [heq]
    exact ⟨hwf, hroot, hsize⟩

/-- Every call keeps the roots in order. -/
theorem InMemoryTableStorageManager.Rooted.step (h : storage.Rooted) (call : StorageCall) :
    (storageStep storage call).2.Rooted := by
  cases call with
  | createHeap table => exact h.createHeap table
  | insert reference record =>
      rw [storageStep]
      rcases storage.openHeap_cases reference with ⟨data, hdata, -, hopen⟩ | ⟨-, st, hopen⟩
      · obtain ⟨hwf, hroot, hsize⟩ := (h.heap_ok _ data hdata).1.insert_kept record
        rw [hopen]
        exact h.storeHeap hdata hwf hroot hsize
      · rw [hopen]
        exact h
  | delete reference recordId =>
      rw [storageStep]
      rcases storage.openHeap_cases reference with ⟨data, hdata, -, hopen⟩ | ⟨-, st, hopen⟩
      · obtain ⟨hwf, hroot, hsize⟩ := (h.heap_ok _ data hdata).1.delete_kept recordId
        rw [hopen]
        exact h.storeHeap hdata hwf hroot hsize
      · rw [hopen]
        exact h

/-- A change of one heap keeps the others small exactly when the heap was
    created last or stays small itself. -/
private theorem InMemoryTableStorageManager.OnlyLastGrows.storeHeap_iff
    (hgrows : storage.OnlyLastGrows) {tableId : Nat} {data : InMemoryTableData}
    (hdata : storage.tables.lookup tableId = some data) :
    (storage.storeHeap tableId heap).OnlyLastGrows
      ↔ (data.rootPageId + 1 < storage.nextRootPageId → heap.pages.length ≤ 1) := by
  have hnext : (storage.storeHeap tableId heap).nextRootPageId = storage.nextRootPageId := by
    rw [InMemoryTableStorageManager.storeHeap]
    rw [hdata]
  rw [InMemoryTableStorageManager.OnlyLastGrows]
  rw [hnext]
  constructor
  · intro hafter
    refine hafter tableId { data with heap := heap } ?_
    rw [InMemoryTableStorageManager.storeHeap_lookup hdata, if_pos rfl]
  · intro hsmall id data' hdata' hlast
    rw [InMemoryTableStorageManager.storeHeap_lookup hdata] at hdata'
    by_cases hid : id = tableId
    · rw [if_pos hid] at hdata'
      cases hdata'
      exact hsmall hlast
    · rw [if_neg hid] at hdata'
      exact hgrows id data' hdata' hlast

/-- One call keeps heaps apart exactly under its condition. -/
theorem InMemoryTableStorageManager.Rooted.step_onlyLastGrows_iff (h : storage.Rooted)
    (hgrows : storage.OnlyLastGrows) (call : StorageCall) :
    (storageStep storage call).2.OnlyLastGrows ↔ storage.KeepsApart call := by
  cases call with
  | createHeap table =>
      rw [storageStep]
      by_cases hcan : table.id ∉ storage.tables ∧ storage.nextRootPageId ≠ kInvalidPageId
      · obtain ⟨hid, hnext⟩ := hcan
        rw [InMemoryTableStorageManager.createHeap_ok h.next_le hid hnext]
        constructor
        · intro hafter _ _ id data hdata hlast
          refine hafter id data ?_ (by dsimp only; omega)
          exact (Finmap.lookup_insert_of_ne _ (ne_of_lookup_of_notMem hdata hid)).trans hdata
        · intro hkeeps id data hdata hlast
          dsimp only at hdata hlast
          rcases lookup_insert_cases hdata with ⟨-, rfl⟩ | ⟨-, hdata⟩
          · exact Nat.zero_le 1
          · have hlt := h.root_lt id data hdata
            by_cases hold : data.rootPageId + 1 = storage.nextRootPageId
            · exact hkeeps hid hnext id data hdata hold
            · exact hgrows id data hdata (by omega)
      · rw [InMemoryTableStorageManager.createHeap_failed hcan]
        exact ⟨fun _ hid hnext => absurd ⟨hid, hnext⟩ hcan, fun _ => hgrows⟩
  | insert reference record =>
      rw [storageStep]
      rcases storage.openHeap_cases reference with
        ⟨data, hdata, hroot, hopen⟩ | ⟨hno, st, hopen⟩
      · obtain ⟨hwf, hsize⟩ := h.heap_ok _ data hdata
        rw [hopen]
        dsimp only
        rw [hgrows.storeHeap_iff hdata]
        -- a second page would have the root id of the next heap
        have hpos := List.length_pos_iff (l := data.heap.pages)
        constructor
        · intro hafter other hother _ hlast hsome hopens
          cases hdata.symm.trans hother
          have hlen := hafter hlast
          rw [hwf.insert_length_of_opensPage hsize hopens] at hlen
          have := hpos.mpr hsome
          omega
        · intro hkeeps hlast
          by_cases hopens : data.heap.OpensPage record
          · have hnone : data.heap.pages = [] :=
              not_not.mp fun hsome => hkeeps data hdata hroot hlast hsome hopens
            rw [hwf.insert_length_of_opensPage hsize hopens, hnone, List.length_nil]
          · rw [hwf.insert_length_of_not_opensPage hopens]
            exact hgrows _ data hdata hlast
      · rw [hopen]
        exact ⟨fun _ data hdata hroot => absurd hroot (hno data hdata), fun _ => hgrows⟩
  | delete reference recordId =>
      rw [storageStep]
      rcases storage.openHeap_cases reference with ⟨data, hdata, -, hopen⟩ | ⟨-, st, hopen⟩
      · rw [hopen]
        dsimp only
        rw [hgrows.storeHeap_iff hdata, PageHeapTable.delete_length]
        exact ⟨fun _ => trivial, fun _ => hgrows _ data hdata⟩
      · rw [hopen]
        exact ⟨fun _ => trivial, fun _ => hgrows⟩

/-! ## Whole runs -/

/-- **PAGE IDS OF DIFFERENT HEAPS**: the heaps of one manager are apart at
    every point of a run exactly when every call of it finds the heap created
    last with at most one page before another is created, and opens a second
    page in no other heap. -/
theorem heaps_apart_iff (calls : List StorageCall) :
    (∀ n, (Run.final storageStep {} (calls.take n)).HeapsApart)
      ↔ ∀ n call, calls[n]? = some call →
        (Run.final storageStep {} (calls.take n)).KeepsApart call := by
  have hempty : InMemoryTableStorageManager.OnlyLastGrows {} := by
    intro id data hdata
    rw [show ({} : InMemoryTableStorageManager).tables = ∅ from rfl, Finmap.lookup_empty] at hdata
    cases hdata
  refine @Run.forall_final_iff _ _ _ Unit storageStep (fun _ _ => ())
    (fun storage _ => storage.Rooted) (fun storage _ => storage.HeapsApart)
    (fun storage _ call => storage.KeepsApart call) ?_ ?_ calls {} ()
    InMemoryTableStorageManager.rooted_empty
    (InMemoryTableStorageManager.rooted_empty.heapsApart_iff.mpr hempty)
  · intro storage _ call h
    exact h.step call
  · intro storage _ call h hapart
    rw [(h.step call).heapsApart_iff]
    exact h.step_onlyLastGrows_iff (h.heapsApart_iff.mp hapart) call

/-- Two tables, the first with two records of a page each and the second with
    a short one. -/
def sideBySide : List StorageCall :=
  let first : TableStorageReference := { tableId := 1, rootPageId := 1 }
  let second : TableStorageReference := { tableId := 2, rootPageId := 2 }
  let wide : Bytes := List.replicate 4090 65
  [.createHeap { id := 1 }, .insert first wide, .insert first wide,
    .createHeap { id := 2 }, .insert second [66]]

set_option maxRecDepth 20000 in
/-- Page 2 is a page of both heaps, and the record id of the short record reads
    a live record of the other table. -/
theorem sideBySide_shares_page :
    ∃ dataA dataB,
      (Run.final storageStep {} sideBySide).tables.lookup 1 = some dataA
      ∧ (Run.final storageStep {} sideBySide).tables.lookup 2 = some dataB
      ∧ dataA.heap.pageIds = [1, 2] ∧ dataB.heap.pageIds = [2]
      ∧ dataB.heap.read ⟨2, 0⟩ = .ok ⟨⟨2, 0⟩, [66]⟩
      ∧ dataA.heap.read ⟨2, 0⟩ = .ok ⟨⟨2, 0⟩, List.replicate 4090 65⟩ := by
  have h : ((Run.final storageStep {} sideBySide).tables.lookup 1).any (fun dataA =>
      ((Run.final storageStep {} sideBySide).tables.lookup 2).any fun dataB =>
        decide (dataA.heap.pageIds = [1, 2] ∧ dataB.heap.pageIds = [2]
          ∧ dataB.heap.read ⟨2, 0⟩ = .ok ⟨⟨2, 0⟩, [66]⟩
          ∧ dataA.heap.read ⟨2, 0⟩ = .ok ⟨⟨2, 0⟩, List.replicate 4090 65⟩)) = true := by
    decide +kernel
  obtain ⟨dataA, hA, h⟩ := (Option.any_eq_true _ _).mp h
  obtain ⟨dataB, hB, h⟩ := (Option.any_eq_true _ _).mp h
  exact ⟨dataA, dataB, hA, hB, of_decide_eq_true h⟩

/-- The second page of the first heap has the id of the second heap's root. -/
theorem sideBySide_not_apart : ¬ (Run.final storageStep {} sideBySide).HeapsApart := by
  obtain ⟨dataA, dataB, hA, hB, hpagesA, hpagesB, -⟩ := sideBySide_shares_page
  intro hapart
  have hdisjoint := hapart.pages 1 2 dataA dataB (by decide) hA hB
  rw [hpagesA, hpagesB] at hdisjoint
  exact hdisjoint (List.mem_cons_of_mem 1 List.mem_cons_self) List.mem_cons_self

end MattSql
