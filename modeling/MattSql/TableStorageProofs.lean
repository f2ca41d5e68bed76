import MattSql.PageHeapProofs

/-! # Table storage

    `storage/in_memory_table_storage.cpp`: one page heap for each table id,
    with root page ids handed out in order.  A handle that `OpenHeap` returns
    shares the stored heap's state; `storeHeap` is the effect on the store of
    what is done through it. -/

namespace MattSql

inductive TableStorageMethod where
  | heap
  deriving DecidableEq

structure TableStorageReference where
  method : TableStorageMethod := .heap
  tableId : Nat := 0
  tableName : Bytes := []
  rootPageId : Nat := kInvalidPageId
  schema : TableSchema := {}
  deriving DecidableEq

structure InMemoryTableData where
  tableId : Nat := 0
  rootPageId : Nat := kInvalidPageId
  heap : PageHeapTable
  deriving DecidableEq

structure InMemoryTableStorageManager where
  nextRootPageId : Nat := 1
  tables : Finmap fun _ : Nat => InMemoryTableData := ∅

/-- `CreateHeap`. -/
def InMemoryTableStorageManager.createHeap (storage : InMemoryTableStorageManager)
    (table : TableInfo) : Result Nat × InMemoryTableStorageManager :=
  if table.id ∈ storage.tables then
    (errorResult .alreadyExists (ascii "heap already exists"), storage)
  else if storage.nextRootPageId = kInvalidPageId then
    (errorResult .internal (ascii "in-memory heap root id space exhausted"), storage)
  else
    let rootPageId := storage.nextRootPageId
    (.ok rootPageId,
      { nextRootPageId := (storage.nextRootPageId + 1) % 2 ^ 64
        tables := storage.tables.insert table.id
          { tableId := table.id
            rootPageId := rootPageId
            heap := { rootPageId := rootPageId } } })

/-- `OpenHeap`. -/
def InMemoryTableStorageManager.openHeap (storage : InMemoryTableStorageManager)
    (reference : TableStorageReference) : Result PageHeapTable :=
  if reference.method ≠ .heap then
    errorResult .notSupported (ascii "only heap table storage is supported")
  else
    match storage.tables.lookup reference.tableId with
    | none => errorResult .notFound (ascii "heap not found")
    | some data =>
      if reference.rootPageId ≠ data.rootPageId then
        errorResult .corruption (ascii "heap root page mismatch")
      else .ok data.heap

/-- The store after a change made through a handle on the table's heap. -/
def InMemoryTableStorageManager.storeHeap (storage : InMemoryTableStorageManager)
    (tableId : Nat) (heap : PageHeapTable) : InMemoryTableStorageManager :=
  match storage.tables.lookup tableId with
  | none => storage
  | some data =>
    { storage with tables := storage.tables.insert tableId { data with heap := heap } }

variable {storage : InMemoryTableStorageManager} {tableId : Nat} {data : InMemoryTableData}

/-- Writing back an unchanged heap changes nothing. -/
theorem InMemoryTableStorageManager.storeHeap_self
    (h : storage.tables.lookup tableId = some data) :
    storage.storeHeap tableId data.heap = storage := by
  have hmap : storage.tables.insert tableId data = storage.tables := by
    apply Finmap.ext_lookup
    intro id
    by_cases hid : id = tableId
    · subst hid
      rw [Finmap.lookup_insert, h]
    · rw [Finmap.lookup_insert_of_ne _ hid]
  rw [InMemoryTableStorageManager.storeHeap]
  rw [h]
  dsimp only
  rw [hmap]

/-- What is stored after a change through a handle. -/
theorem InMemoryTableStorageManager.storeHeap_lookup
    (h : storage.tables.lookup tableId = some data) (heap : PageHeapTable) (id : Nat) :
    (storage.storeHeap tableId heap).tables.lookup id
      = if id = tableId then some { data with heap := heap } else storage.tables.lookup id := by
  rw [InMemoryTableStorageManager.storeHeap]
  rw [h]
  by_cases hid : id = tableId
  · subst hid
    rw [if_pos rfl]
    exact Finmap.lookup_insert _
  · rw [if_neg hid]
    exact Finmap.lookup_insert_of_ne _ hid

/-- A reference with the stored root opens the stored heap. -/
theorem InMemoryTableStorageManager.openHeap_ok {reference : TableStorageReference}
    (h : storage.tables.lookup reference.tableId = some data)
    (hroot : reference.rootPageId = data.rootPageId) :
    storage.openHeap reference = .ok data.heap := by
  rw [InMemoryTableStorageManager.openHeap]
  rw [if_neg (by cases reference.method; decide), h]
  dsimp only
  rw [if_neg (not_not.mpr hroot)]

/-- What `OpenHeap` opens is stored. -/
theorem InMemoryTableStorageManager.openHeap_found {reference : TableStorageReference}
    {heap : PageHeapTable} (h : storage.openHeap reference = .ok heap) :
    ∃ data, storage.tables.lookup reference.tableId = some data
      ∧ reference.rootPageId = data.rootPageId ∧ data.heap = heap := by
  rw [InMemoryTableStorageManager.openHeap] at h
  obtain ⟨-, h⟩ := guard_ok_iff.mp h
  cases hfound : storage.tables.lookup reference.tableId with
  | none =>
      rw [hfound] at h
      cases h
  | some data =>
      rw [hfound] at h
      obtain ⟨hroot, h⟩ := guard_ok_iff.mp h
      cases h
      exact ⟨data, rfl, not_not.mp hroot, rfl⟩

/-- A handle sees what was done through it. -/
theorem InMemoryTableStorageManager.openHeap_storeHeap {reference : TableStorageReference}
    {heap : PageHeapTable} (h : storage.openHeap reference = .ok heap) (after : PageHeapTable) :
    (storage.storeHeap reference.tableId after).openHeap reference = .ok after := by
  obtain ⟨data, hfound, hroot, -⟩ := openHeap_found h
  have hlookup := storeHeap_lookup hfound after reference.tableId
  rw [if_pos rfl] at hlookup
  exact openHeap_ok hlookup hroot

end MattSql
