import MattSql.ExecutorProofs
import MattSql.HeapInsertProofs

/-! # What a failed INSERT leaves behind

    `execute_insert` evaluates all rows of its input before it opens the heap,
    then checks, encodes and stores them one by one.  There is no undo below
    it: neither the heap nor the transaction keeps a log, and the record ids
    that `Insert` returns are dropped.  So a failure before the loop stores
    nothing, and a failure in the loop keeps the rows stored by then.

    `executeInsert_failure` says exactly which rows those are, for any number
    of rows and any state of the heap. -/

namespace MattSql

open Fallible

variable {schema : TableSchema} {heap heap' : PageHeapTable}

/-- A heap that a user can have. -/
def PageHeapTable.Reached (heap : PageHeapTable) : Prop :=
  ∃ root pageSize calls, root < 2 ^ 64
    ∧ heap = Run.final heapStep (PageHeapTable.new root pageSize) calls

/-- The rows are stored, each as its encoding under an id of its own, and
    everything stored before is still there. -/
def PageHeapTable.StoresRows (schema : TableSchema) (rows : List (List Value))
    (heap heap' : PageHeapTable) : Prop :=
  heap'.recordCount = heap.recordCount + rows.length
  ∧ ∃ views, List.Forall₂ (fun row view => encode schema row = .ok view.bytes) rows views
    ∧ heap'.records.Perm (views ++ heap.records)

theorem PageHeapTable.StoresRows.nil (schema : TableSchema) (heap : PageHeapTable) :
    heap.StoresRows schema [] heap :=
  ⟨rfl, [], .nil, List.Perm.refl _⟩

/-- One row, then the others. -/
theorem PageHeapTable.StoresRows.cons {row : List Value} {rows : List (List Value)}
    {middle : PageHeapTable} (hrow : heap.StoresRows schema [row] middle)
    (hrows : middle.StoresRows schema rows heap') : heap.StoresRows schema (row :: rows) heap' := by
  obtain ⟨hcount, views, hviews, hperm⟩ := hrow
  obtain ⟨hcount', views', hviews', hperm'⟩ := hrows
  obtain ⟨view, none, hview, hnil, rfl⟩ := List.forall₂_cons_left_iff.mp hviews
  cases hnil
  refine ⟨?_, view :: views', .cons hview hviews', ?_⟩
  · rw [hcount', hcount]
    simp only [List.length_cons, List.length_nil]
    omega
  · exact (hperm'.trans (hperm.append_left views')).trans List.perm_middle

/-! ## The loop over the rows -/

private theorem insertRows_cons (row : List Value) (rows : List (List Value))
    (heap : PageHeapTable) :
    insertRows schema (row :: rows) heap
      = match insertRows schema [row] heap with
        | (.error st, heap) => (.error st, heap)
        | (.ok (), heap) => insertRows schema rows heap := by
  rw [insertRows, insertRows]
  split
  · rfl
  · cases encode schema row with
    | error st => rfl
    | ok tuple =>
        dsimp only
        cases heap.insert tuple with
        | mk reply after =>
            cases reply with
            | error st => rfl
            | ok id => rfl

/-- One row: it is stored, or the heap stays as it is. -/
theorem insertRows_one {root pageSize : Nat} (h : heap.Kept root pageSize) (row : List Value) :
    (∃ heap', insertRows schema [row] heap = (.ok (), heap')
      ∧ heap.StoresRows schema [row] heap' ∧ heap'.Kept root pageSize)
    ∨ ∃ st, insertRows schema [row] heap = (.error st, heap) := by
  rw [insertRows]
  by_cases hwidth : row.length ≠ schema.columns.length
  · rw [if_pos hwidth]
    exact Or.inr ⟨_, rfl⟩
  · rw [if_neg hwidth]
    cases henc : encode schema row with
    | error st => exact Or.inr ⟨st, rfl⟩
    | ok tuple =>
        -- the heap refuses a record without a trace
        have hkept := heapStep_kept heap (.insert tuple) h
        dsimp only
        rcases h.shape with hwf | ⟨hroot, hpages⟩
        · rcases hwf.insert_spec tuple with ⟨id, heap', heq, hins, -⟩ | ⟨st, heq, -⟩
          · rw [heapStep, heq] at hkept
            rw [heq]
            refine Or.inl ⟨heap', rfl, ⟨?_, [⟨id, tuple⟩], .cons henc .nil, hins.perm⟩, hkept⟩
            show heap'.activeRecords = heap.activeRecords + 1
            rw [hins.wellFormed.counted, hwf.counted, hins.perm.length_eq, List.length_cons]
          · rw [heq]
            exact Or.inr ⟨st, rfl⟩
        · obtain ⟨st, heq⟩ := PageHeapTable.insert_rootless hroot hpages tuple
          rw [heq]
          exact Or.inr ⟨st, rfl⟩

/-- The loop stores every row, or stops at the first row that fails and keeps
    the rows before it. -/
theorem insertRows_outcome {root pageSize : Nat} (h : heap.Kept root pageSize)
    (rows : List (List Value)) :
    (∃ heap', insertRows schema rows heap = (.ok (), heap') ∧ heap.StoresRows schema rows heap')
    ∨ ∃ k row st heap', rows[k]? = some row ∧ insertRows schema rows heap = (.error st, heap')
      ∧ heap.StoresRows schema (rows.take k) heap'
      ∧ insertRows schema [row] heap' = (.error st, heap') ∧ (k = 0 → heap' = heap) := by
  -- induction on the rows: what is true of the heap after one row is needed for the next
  induction rows generalizing heap with
  | nil => exact Or.inl ⟨heap, rfl, .nil schema heap⟩
  | cons row rows ih =>
      rw [insertRows_cons]
      rcases @insertRows_one schema heap root pageSize h row with
        ⟨middle, hone, hstored, hkept⟩ | ⟨st, hone⟩
      · rw [hone]
        dsimp only
        rcases ih hkept with ⟨heap', heq, hrest⟩ | ⟨k, bad, st, heap', hget, heq, hrest, hbad, -⟩
        · exact Or.inl ⟨heap', heq, hstored.cons hrest⟩
        · refine Or.inr ⟨k + 1, bad, st, heap', hget, heq, ?_, hbad, fun hk => by cases hk⟩
          rw [List.take_succ_cons]
          exact hstored.cons hrest
      · rw [hone]
        exact Or.inr ⟨0, row, st, heap, rfl, rfl, .nil schema heap, hone, fun _ => rfl⟩

/-! ## The statement -/

variable {transaction : Transaction} {table : TableInfo} {reference : TableStorageReference}
  {rows : List (List BoundExpression)} {db : Database}

/-- The rows a VALUES list stands for. -/
def evaluateRows (rows : List (List BoundExpression)) : Result (List (List Value)) :=
  rows.mapM fun row => evaluateExpressions row {}

/-- An INSERT of a VALUES list fails before its loop and changes nothing, or
    runs its loop on the heap. -/
theorem executePhysical_insert (transaction : Transaction) (table : TableInfo)
    (reference : TableStorageReference) (rows : List (List BoundExpression)) (db : Database) :
    (∃ st, executePhysical (.insert [.values [] rows] table reference) transaction db
      = (.error st, db))
    ∨ ∃ values heap, evaluateRows rows = .ok values ∧ db.storage.openHeap reference = .ok heap
      ∧ executePhysical (.insert [.values [] rows] table reference) transaction db
        = ((fun _ => {}) <$> (insertRows table.schema values heap).1,
          { db with storage :=
              db.storage.storeHeap reference.tableId (insertRows table.schema values heap).2 }) := by
  rw [executePhysical]
  cases requireActive transaction with
  | error st => exact Or.inl ⟨st, rfl⟩
  | ok _ =>
      dsimp only
      rw [executePlan, executePlan]
      -- the checks come in the order of the source, and none has touched the heap
      cases requireWritable transaction with
      | error st => exact Or.inl ⟨st, rfl⟩
      | ok _ =>
          dsimp only
          by_cases hmethod : reference.method ≠ .heap
          · rw [if_pos hmethod]
            exact Or.inl ⟨_, rfl⟩
          · rw [if_neg hmethod]
            unfold executeValues executeInsert
            cases heval : evaluateRows rows with
            | error st =>
                have hvalues : (rows.mapM fun row => evaluateExpressions row {}) = .error st :=
                  heval
                rw [hvalues]
                exact Or.inl ⟨st, rfl⟩
            | ok values =>
                have hvalues : (rows.mapM fun row => evaluateExpressions row {}) = .ok values :=
                  heval
                rw [hvalues]
                cases hopen : db.storage.openHeap reference with
                | error st =>
                    refine Or.inl ⟨st, ?_⟩
                    dsimp only [ok_bind]
                    rw [hopen]
                    rfl
                | ok heap =>
                    refine Or.inr ⟨values, heap, rfl, rfl, ?_⟩
                    dsimp only [ok_bind]
                    rw [hopen]
                    dsimp only
                    cases insertRows table.schema values heap with
                    | mk reply after => cases reply <;> rfl

/-- The database after the INSERT failed at row `k`, which is not its first
    one: every row was evaluated, exactly the rows before it are stored, and its
    own failure is the statement's. -/
def Database.KeepsRowsBefore (table : TableInfo) (reference : TableStorageReference)
    (rows : List (List BoundExpression)) (st : Status) (db db' : Database) : Prop :=
  ∃ values heap k row heap', evaluateRows rows = .ok values
    ∧ db.storage.openHeap reference = .ok heap
    ∧ 0 < k ∧ values[k]? = some row
    ∧ heap.StoresRows table.schema (values.take k) heap'
    ∧ insertRows table.schema [row] heap' = (.error st, heap')
    ∧ db' = { db with storage := db.storage.storeHeap reference.tableId heap' }
    ∧ db'.storage.openHeap reference = .ok heap'

/-- **A FAILED INSERT** of a VALUES list, on any heap a user can have, changed
    nothing at all, or stored exactly the rows before the first one that
    fails. -/
theorem executeInsert_failure (transaction : Transaction) (table : TableInfo)
    (reference : TableStorageReference) (rows : List (List BoundExpression)) (db : Database)
    (hheap : ∀ heap, db.storage.openHeap reference = .ok heap → heap.Reached) (st : Status)
    (hfail : (executePhysical (.insert [.values [] rows] table reference) transaction db).1
      = .error st) :
    (executePhysical (.insert [.values [] rows] table reference) transaction db).2 = db
    ∨ db.KeepsRowsBefore table reference rows st
        (executePhysical (.insert [.values [] rows] table reference) transaction db).2 := by
  rcases executePhysical_insert transaction table reference rows db with
    ⟨st', hrun⟩ | ⟨values, heap, heval, hopen, hrun⟩
  · rw [hrun]
    exact Or.inl rfl
  · rw [hrun] at hfail ⊢
    obtain ⟨root, pageSize, calls, hroot, rfl⟩ := hheap heap hopen
    rcases @insertRows_outcome table.schema _ root pageSize (heapRun_kept hroot pageSize calls)
      values with ⟨heap', heq, -⟩ | ⟨k, row, st', heap', hget, heq, hstored, hrow, hfirst⟩
    · rw [heq] at hfail
      cases hfail
    · rw [heq] at hfail ⊢
      cases hfail
      dsimp only
      -- a failure at the first row left the heap, and so the whole storage, as it was
      cases k with
      | zero =>
          obtain ⟨data, hfound, -, hdata⟩ := InMemoryTableStorageManager.openHeap_found hopen
          rw [hfirst rfl, ← hdata, InMemoryTableStorageManager.storeHeap_self hfound]
          exact Or.inl rfl
      | succ k =>
          exact Or.inr ⟨values, _, k + 1, row, heap', heval, hopen, Nat.zero_lt_succ k, hget,
            hstored, hrow, rfl, InMemoryTableStorageManager.openHeap_storeHeap hopen heap'⟩

/-- A table of one TEXT column. -/
def notesTable : TableInfo :=
  { id := 1
    name := ascii "notes"
    schema := ⟨[{ name := ascii "body", type := .text }]⟩
    heapRootPageId := 1 }

/-- The store right after its heap was created. -/
def notesDatabase : Database :=
  { storage := (({} : InMemoryTableStorageManager).createHeap notesTable).2 }

/-- Two rows, the second of which no page can hold. -/
def notesRows : List (List BoundExpression) :=
  [[.literal .text (.text (ascii "a"))], [.literal .text (.text (List.replicate 5000 97))]]

theorem notesDatabase_heap :
    notesDatabase.storage.openHeap (makeTableStorageReference notesTable)
      = .ok (PageHeapTable.new 1 kDefaultPageSize) := by
  decide +kernel

theorem notesDatabase_reached (heap : PageHeapTable)
    (h : notesDatabase.storage.openHeap (makeTableStorageReference notesTable) = .ok heap) :
    heap.Reached := by
  refine ⟨1, kDefaultPageSize, [], by decide, ?_⟩
  rw [notesDatabase_heap] at h
  cases h
  rfl

/-- The reply to the INSERT, and the number of rows in the table after it. -/
theorem notesInsert_run :
    (executePhysical (.insert [.values [] notesRows] notesTable
        (makeTableStorageReference notesTable)) {} notesDatabase).1
      = errorResult .invalidArgument (ascii "not enough free space in slotted page")
    ∧ PageHeapTable.recordCount
        <$> (executePhysical (.insert [.values [] notesRows] notesTable
          (makeTableStorageReference notesTable)) {} notesDatabase).2.storage.openHeap
            (makeTableStorageReference notesTable) = .ok 1 := by
  decide +kernel

/-- The second of two rows is too large for a page: the statement fails, and
    the first row is in the table. -/
theorem insert_keeps_first_row :
    ¬ ∀ (transaction : Transaction) (table : TableInfo) (reference : TableStorageReference)
      (rows : List (List BoundExpression)) (db : Database),
      (∀ heap, db.storage.openHeap reference = .ok heap → heap.Reached) →
      ∀ st, (executePhysical (.insert [.values [] rows] table reference) transaction db).1
          = .error st →
        ∀ heap heap', db.storage.openHeap reference = .ok heap →
          (executePhysical (.insert [.values [] rows] table reference) transaction
            db).2.storage.openHeap reference = .ok heap' →
          heap'.records = heap.records ∧ heap'.recordCount = heap.recordCount := by
  intro hclaim
  have hbefore : PageHeapTable.recordCount
        <$> notesDatabase.storage.openHeap (makeTableStorageReference notesTable) = .ok 0 := by
    rw [notesDatabase_heap]
    rfl
  obtain ⟨hrefused, hafter⟩ := notesInsert_run
  have hall := hclaim {} notesTable (makeTableStorageReference notesTable) notesRows
    notesDatabase notesDatabase_reached _ hrefused
  generalize notesDatabase.storage.openHeap (makeTableStorageReference notesTable) = before
    at hbefore hall
  generalize (executePhysical (.insert [.values [] notesRows] notesTable
    (makeTableStorageReference notesTable)) {} notesDatabase).2.storage.openHeap
      (makeTableStorageReference notesTable) = after at hafter hall
  cases before with
  | error st => cases hbefore
  | ok heap =>
      cases after with
      | error st => cases hafter
      | ok heap' =>
          have hsame := (hall heap heap' rfl rfl).2
          have hzero : heap.recordCount = 0 := Except.ok.inj hbefore
          have hone : heap'.recordCount = 1 := Except.ok.inj hafter
          rw [hzero, hone] at hsame
          exact absurd hsame (by decide)

theorem executeInsert_failure_notes :
    (executePhysical (.insert [.values [] notesRows] notesTable
        (makeTableStorageReference notesTable)) {} notesDatabase).2 = notesDatabase
    ∨ notesDatabase.KeepsRowsBefore notesTable (makeTableStorageReference notesTable) notesRows
        ⟨.invalidArgument, ascii "not enough free space in slotted page"⟩
        (executePhysical (.insert [.values [] notesRows] notesTable
          (makeTableStorageReference notesTable)) {} notesDatabase).2 :=
  executeInsert_failure {} notesTable _ notesRows notesDatabase notesDatabase_reached _
    notesInsert_run.1

end MattSql
