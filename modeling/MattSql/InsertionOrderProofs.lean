import MattSql.GrowthProofs

/-! # Insertion order

    A heap puts a record on the first page with room, so a small row can come
    to stand in front of older ones.

    Rows of one size cannot: SQL deletes nothing, so pages have no holes, and
    then every page but the last one is full for records of that size
    (`PageHeapTable.Dense`).  So a table all of whose rows have one size shows
    them in the order in which they were inserted: what a SELECT shows at one
    time is the front of what it shows at any later time
    (`select_in_insertion_order`). -/

namespace MattSql

open Fallible

variable {heap heap' : PageHeapTable} {page : Page} {record : Bytes} {id : RecordId} {n : Nat}

/-! ## Pages without deleted slots -/

/-- No slot is deleted. -/
def Page.Dense (page : Page) : Prop := findDeletedSlot page = none

theorem Page.Dense.target (h : page.Dense) : page.target = MattSql.slotCount page.header := by
  rw [Page.target, h]
  rfl

theorem Page.Dense.fits_iff (h : page.Dense) :
    page.Fits record ↔ record.length + 6 ≤ page.header.upper - page.header.lower := by
  rw [Page.Fits, Page.slotSpace, h]
  rfl

theorem Page.WellFormed.dense_empty (h : page.WellFormed) (hlower : page.header.lower = 0) :
    page.Dense := by
  cases hfind : findDeletedSlot page with
  | none => exact hfind
  | some slot =>
      obtain ⟨hlt, -, -⟩ := findDeletedSlot_some hfind
      have hlow := h.lower_eq
      omega

/-- An insert appends a slot. -/
theorem Page.Dense.inserted (h : page.Dense) (hwf : page.WellFormed) (hfit : page.Fits record) :
    (page.inserted record).Dense := by
  cases hfind : findDeletedSlot (page.inserted record) with
  | none => exact hfind
  | some slot =>
      obtain ⟨hlt, hdeleted, -⟩ := findDeletedSlot_some hfind
      obtain ⟨-, -, -, hlive, -⟩ := Page.inserted_slots hwf.header hfit
      rw [Page.inserted_slotCount hwf.header, h.target] at hlt
      have hslot : (page.inserted record).Live slot := by
        rw [hlive, h.target]
        by_cases heq : slot = MattSql.slotCount page.header
        · exact .inl heq
        · exact .inr (findDeletedSlot_none h slot (by omega))
      rw [hslot.2] at hdeleted
      cases hdeleted

/-! ## Heaps without deletions -/

/-- All records have this size. -/
def PageHeapTable.Uniform (heap : PageHeapTable) (n : Nat) : Prop :=
  ∀ view ∈ heap.records, view.bytes.length = n

/-- No slot is deleted; and if all records have one size, only the last page has
    room for one more. -/
structure PageHeapTable.Dense (heap : PageHeapTable) : Prop where
  pages : ∀ page ∈ heap.pages, page.Dense
  full : ∀ n, heap.Uniform n → ∀ i page, heap.pages[i]? = some page →
    i + 1 < heap.pages.length → page.header.upper - page.header.lower < n + 6

/-- Where an insert goes: on an existing page, or on a page that is appended
    when no page has room. -/
theorem PageHeapTable.WellFormed.insert_cases (h : heap.WellFormed)
    (hins : heap.insert record = (.ok id, heap')) :
    (∃ i page, heap.pages[i]? = some page ∧ page.Fits record
      ∧ id = ⟨page.header.pageId, page.target⟩
      ∧ heap'.pages = heap.pages.set i (page.inserted record))
    ∨ ∃ fresh : Page, (∀ page ∈ heap.pages, ¬ page.Fits record) ∧ fresh.WellFormed
      ∧ fresh.Fits record ∧ fresh.Dense
      ∧ id = ⟨heap.rootPageId + heap.pages.length, fresh.target⟩
      ∧ heap'.pages = heap.pages ++ [fresh.inserted record] := by
  by_cases hexists : ∃ page ∈ heap.pages, page.Fits record
  · obtain ⟨i, page, hget, hfit, hfirst⟩ := exists_first_fit hexists
    rw [h.insert_existing hget hfit hfirst] at hins
    cases hins
    exact .inl ⟨i, page, hget, hfit, rfl, rfl⟩
  have hnone : ∀ page ∈ heap.pages, ¬ page.Fits record :=
    fun page hmem hfit => hexists ⟨page, hmem, hfit⟩
  by_cases hcan : heap.rootPageId + heap.pages.length < kInvalidPageId
      ∧ heap.pageSize ≤ 65535 ∧ record.length + 6 ≤ heap.pageSize
  · obtain ⟨fresh, heq, hfresh, hfit, -, -, -, hlower, -⟩ :=
      h.insert_fresh hnone hcan.1 hcan.2.1 hcan.2.2
    rw [heq] at hins
    cases hins
    exact .inr ⟨fresh, hnone, hfresh, hfit, hfresh.dense_empty hlower, rfl, rfl⟩
  · obtain ⟨st, heq, -⟩ := h.insert_refused hnone hcan
    rw [heq] at hins
    cases hins

/-- A record behind all others is appended. -/
theorem PageHeapTable.Inserts.records_concat (hins : heap.Inserts record id heap')
    (h : heap.Sound) (hlast : ∀ view ∈ heap.records, view.Before ⟨id, record⟩) :
    heap'.records = heap.records ++ [⟨id, record⟩] := by
  obtain ⟨front, back, hold, hnew⟩ := hins.records_split h
  cases back with
  | nil => rw [hnew, hold, List.append_nil]
  | cons view back =>
      -- what comes behind the new record would come in front of it
      have hbefore := hlast view (by rw [hold]; simp)
      have hsorted := hins.wellFormed.toSound.records_sorted
      rw [hnew] at hsorted
      have hafter := List.rel_of_pairwise_cons (List.pairwise_append.mp hsorted).2.1
        (List.mem_cons_self (a := view) (l := back))
      exact absurd hbefore hafter.asymm

theorem PageHeapTable.Inserts.uniform (hins : heap.Inserts record id heap')
    (h : heap'.Uniform n) : record.length = n ∧ heap.Uniform n :=
  ⟨h _ (hins.perm.mem_iff.mpr List.mem_cons_self),
    fun view hview => h view (hins.perm.mem_iff.mpr (List.mem_cons_of_mem _ hview))⟩

/-- Views of the records on a page of the heap. -/
theorem PageHeapTable.Sound.record_place (h : heap.Sound) {view : RecordView}
    (hview : view ∈ heap.records) : ∃ i page, heap.pages[i]? = some page
      ∧ view.id.pageId = heap.rootPageId + i
      ∧ view.id.slotId < MattSql.slotCount page.header := by
  obtain ⟨i, page, hget, hid, hlookup⟩ :=
    PageHeapTable.lookup_eq_some_iff.mp (h.mem_records.mp hview)
  exact ⟨i, page, hget, hid, (Page.lookup_isSome_iff.mp (by rw [hlookup]; rfl)).1⟩

theorem PageHeapTable.WellFormed.inserts_of_insert (h : heap.WellFormed)
    (hins : heap.insert record = (.ok id, heap')) : heap.Inserts record id heap' := by
  rcases h.insert_spec record with ⟨id', heap'', heq, hspec, -⟩ | ⟨st, heq, -⟩
  · cases hins.symm.trans heq
    exact hspec
  · cases hins.symm.trans heq

/-- **AN INSERT** leaves no holes, and with records of one size it comes last. -/
theorem PageHeapTable.Dense.insert (hdense : heap.Dense) (h : heap.WellFormed)
    (hins : heap.insert record = (.ok id, heap')) :
    heap'.Dense ∧ ∀ n, heap'.Uniform n → heap'.records = heap.records ++ [⟨id, record⟩] := by
  have hspec := h.inserts_of_insert hins
  rcases h.insert_cases hins with
    ⟨i, page, hget, hfit, rfl, hpages⟩ | ⟨fresh, hnone, hwf, hfit, hfresh, rfl, hpages⟩
  · obtain ⟨hwf, hid, -⟩ := h.page_ok i page hget
    have hpage := hdense.pages page (List.mem_of_getElem? hget)
    -- the page with room is the last one
    have hlast : ∀ n, heap'.Uniform n → ¬i + 1 < heap.pages.length := by
      intro n huniform hlt
      obtain ⟨hlength, hold⟩ := hspec.uniform huniform
      have hfull := hdense.full n hold i page hget hlt
      have hroom := hpage.fits_iff.mp hfit
      omega
    refine ⟨⟨?_, ?_⟩, ?_⟩
    · rw [hpages]
      intro other hother
      rcases List.mem_or_eq_of_mem_set hother with hother | rfl
      · exact hdense.pages other hother
      · exact hpage.inserted hwf hfit
    · intro n huniform j other hother hlt
      rw [hpages, List.length_set] at hlt
      have hne : i ≠ j := by
        rintro rfl
        exact hlast n huniform hlt
      rw [hpages, List.getElem?_set_ne hne] at hother
      exact hdense.full n (hspec.uniform huniform).2 j other hother hlt
    · intro n huniform
      refine hspec.records_concat h.toSound fun view hview => ?_
      obtain ⟨j, other, hother, hpageId, hslot⟩ := h.record_place hview
      obtain ⟨hj, -⟩ := List.getElem?_eq_some_iff.mp hother
      have hend := hlast n huniform
      rw [RecordView.Before, hpageId, hid, hpage.target]
      dsimp only
      by_cases hij : j = i
      · subst hij
        cases hget.symm.trans hother
        exact .inr ⟨rfl, hslot⟩
      · exact .inl (by omega)
  · refine ⟨⟨?_, ?_⟩, ?_⟩
    · rw [hpages]
      exact List.forall_mem_append.mpr
        ⟨hdense.pages, List.forall_mem_singleton.mpr (hfresh.inserted hwf hfit)⟩
    · intro n huniform j other hother hlt
      rw [hpages, List.length_append, List.length_singleton] at hlt
      rw [hpages, List.getElem?_append_left (by omega)] at hother
      have hmem := List.mem_of_getElem? hother
      have hfull := mt (hdense.pages other hmem).fits_iff.mpr (hnone other hmem)
      have hlength := (hspec.uniform huniform).1
      omega
    · intro n _
      refine hspec.records_concat h.toSound fun view hview => .inl ?_
      obtain ⟨j, other, hother, hpageId, -⟩ := h.record_place hview
      obtain ⟨hj, -⟩ := List.getElem?_eq_some_iff.mp hother
      rw [hpageId]
      exact Nat.add_lt_add_left hj _

/-! ## Databases -/

/-- No heap has holes: SQL deletes nothing. -/
def Database.Dense (db : Database) : Prop :=
  ∀ id data, db.storage.tables.lookup id = some data → data.heap.Dense

/-- All rows of the table have this size. -/
def Database.Uniform (db : Database) (table : TableInfo) (n : Nat) : Prop :=
  ∀ row ∈ db.sourceRows table, (rowBytes row).length = n

/-- There are no holes, and where all rows of a table have one size the old ones
    come first. -/
structure Database.Appends (db db' : Database) : Prop where
  dense : db'.Dense
  rows : ∀ key table, db.catalog.tablesByName.lookup key = some table → ∀ n,
    db'.Uniform table n → db.sourceRows table <+: db'.sourceRows table

variable {db : Database} {key : Bytes} {table : TableInfo} {data : InMemoryTableData}

theorem Database.Dense.appends (h : db.Dense) : db.Appends db :=
  ⟨h, fun _ _ _ _ _ => List.prefix_refl _⟩

/-- The loop of INSERT on one row: the heap keeps what it has, or takes the
    record of the row. -/
theorem insertRows_takes {schema : TableSchema} (hc : Storable schema.columns) (row : List Value)
    (heap : PageHeapTable) (h : heap.WellFormed) :
    (insertRows schema [row] heap).2 = heap
      ∨ ∃ id, heap.insert (rowBytes row) = (.ok id, (insertRows schema [row] heap).2)
        ∧ decode schema (rowBytes row) = .ok row := by
  rw [insertRows]
  split
  · exact .inl rfl
  · cases hencode : encode schema row with
    | error st => exact .inl rfl
    | ok record =>
        obtain ⟨hfits, rfl⟩ := (encode_ok_iff hc row record).mp hencode
        dsimp only
        rcases h.insert_spec (rowBytes row) with ⟨id, heap', heq, -⟩ | ⟨st, heq, -⟩
        · rw [heq]
          exact .inr ⟨id, rfl, (decode_ok_iff hc _ row).mpr ⟨hfits, rfl⟩⟩
        · rw [heq]
          exact .inl rfl

/-- Rows of one size are records of that size. -/
theorem Database.Stores.uniform (hs : db.Stores key table data) (h : db.Uniform table n) :
    data.heap.Uniform n := by
  intro view hview
  obtain ⟨row, hrow⟩ := hs.decodes view hview
  have hmem : row ∈ db.sourceRows table := by
    rw [hs.sourceRows, heapRows]
    exact List.mem_filterMap.mpr ⟨view, hview, by rw [hrow]; rfl⟩
  obtain ⟨-, hbytes⟩ := (decode_ok_iff hs.valid.storable _ row).mp hrow
  rw [hbytes]
  exact h row hmem

theorem Database.Appends.inserted (hdb : db.Consistent) (hdense : db.Dense)
    (hfound : db.catalog.tablesByName.lookup key = some table) (hs : db.Stores key table data)
    {row : List Value} {heap : PageHeapTable}
    (hins : data.heap.insert (rowBytes row) = (.ok id, heap))
    (hdec : decode table.schema (rowBytes row) = .ok row) :
    db.Appends { db with storage := db.storage.storeHeap table.id heap } := by
  have hspec := hs.wellFormed.inserts_of_insert hins
  obtain ⟨hheap, hconcat⟩ := (hdense table.id data hs.heap_found).insert hs.wellFormed hins
  have hlookup := InMemoryTableStorageManager.storeHeap_lookup hs.heap_found heap
  refine ⟨fun other data' hdata => ?_, fun key' table' hfound' n huniform => ?_⟩
  · rw [hlookup] at hdata
    split at hdata
    · cases hdata
      exact hheap
    · exact hdense other data' hdata
  · by_cases hkey : key' = key
    · subst hkey
      cases hfound.symm.trans hfound'
      -- the table after the INSERT
      obtain ⟨data', hs'⟩ := (hdb.inserted hfound hs hspec hdec).tables key' table hfound
      obtain rfl : { data with heap := heap } = data' := by
        have hdata := hs'.heap_found
        rw [hlookup, if_pos rfl] at hdata
        exact Option.some.inj hdata
      rw [hs.sourceRows, hs'.sourceRows, heapRows, heapRows, hconcat n (hs'.uniform huniform),
        List.filterMap_append]
      exact List.prefix_append _ _
    · rw [(hdb.inserted_rows hs hspec hdec).2 key' table' hfound' hkey]

theorem BoundIn.appends (hdb : db.Consistent) (hdense : db.Dense) {bound : BoundStatement}
    (h : BoundIn db bound) : db.Appends (runBound {} bound db).2 := by
  cases h with
  | select hb hfrom =>
      rw [hb.run hdb hfrom]
      exact hdense.appends
  | @insert key table values hfound hb =>
      obtain ⟨data, hs⟩ := hdb.tables key table hfound
      obtain ⟨hfailed, hrow⟩ := hs.runInsert_eq hdb hfound hb
      rcases evaluateValues_outcome hb with ⟨st, heval, -⟩ | ⟨row, heval, htyped⟩
      · rw [hfailed st heval]
        exact hdense.appends
      · rw [hrow row heval]
        dsimp only
        rcases insertRows_takes hs.valid.storable row data.heap hs.wellFormed with
          hsame | ⟨id, hins, hdec⟩
        · rw [hsame, InMemoryTableStorageManager.storeHeap_self hs.heap_found]
          exact hdense.appends
        · exact .inserted hdb hdense hfound hs hins hdec
  | @createTable request hname hne hnew hvalid =>
      have hrun := hdb.runCreateTable hname hne hnew hvalid
      generalize runBound {} (.createTable request) db = reply at hrun ⊢
      cases hrun with
      | exhausted hroots hbyName hbyId => exact ⟨hdense, fun _ _ _ _ _ => List.prefix_refl _⟩
      | created hid hroots =>
          refine ⟨fun id data hdata => ?_, fun key table hfound n _ => ?_⟩
          · by_cases hnewId : id = db.catalog.nextTableId
            · subst hnewId
              cases (Finmap.lookup_insert _).symm.trans hdata
              exact ⟨List.forall_mem_nil _, fun _ _ _ _ hget => by cases hget⟩
            · exact hdense id data ((Finmap.lookup_insert_of_ne _ hnewId).symm.trans hdata)
          · rw [hdb.created_rows hid hfound]

/-- One SQL text. -/
theorem Database.Consistent.execute_appends (hdb : db.Consistent) (hdense : db.Dense)
    (sql : Bytes) : db.Appends (MattSql.execute db sql).2 := by
  rw [MattSql.execute, executeIn]
  cases hparse : parseSql sql with
  | error st => exact hdense.appends
  | ok statement =>
      dsimp only
      cases hbind : bind db.catalog.getTable statement with
      | error st => exact hdense.appends
      | ok bound => exact (hdb.boundIn hparse hbind).appends hdb hdense

/-- A run of them.  A table whose rows have one size in the end had rows of that
    size all along. -/
theorem Database.Consistent.run_appends (texts : List Bytes) :
    ∀ {db : Database}, db.Consistent → db.Dense →
      db.Appends (Run.final MattSql.execute db texts) := by
  induction texts with
  | nil => exact fun _ hdense => hdense.appends
  | cons sql rest ih =>
      intro db hdb hdense
      have hfirst := hdb.execute_appends hdense sql
      have hrest := ih (hdb.execute sql) hfirst.dense
      refine ⟨hrest.dense, fun key table hfound n huniform => ?_⟩
      have hkept := (hdb.execute_grows sql).tables key table hfound
      have hrows := (run_grows rest (hdb.execute sql)).rows key table hkept
      exact (hfirst.rows key table hfound n fun row hrow => huniform row (hrows.subset hrow)).trans
        (hrest.rows key table hkept n huniform)

/-! ## SELECTs -/

theorem Database.dense_empty : Database.Dense {} := by
  intro id data hdata
  rw [show ({} : Database).storage.tables = ∅ from rfl, Finmap.lookup_empty] at hdata
  cases hdata

theorem engineAfter_appends (texts more : List Bytes) :
    (engineAfter texts).Appends (engineAfter (texts ++ more)) := by
  have hdense := (Database.Consistent.run_appends texts Database.consistent_empty
    Database.dense_empty).dense
  rw [engineAfter, engineAfter, Run.final_append]
  exact Database.Consistent.run_appends more (engineAfter_consistent texts) hdense

/-- **INSERTION ORDER**: when all rows that `SELECT *` shows of a table have one
    size, every SELECT over the table showed, at every earlier time at which the
    table was there, the front of what it shows now. -/
theorem select_in_insertion_order (texts more : List Bytes) {sql sqlAll : Bytes}
    {projections : List SelectProjection} {tableName : Bytes} {predicate : Option Expression}
    (hparse : parseSql sql = .ok (.select projections tableName predicate))
    (hparseAll : parseSql sqlAll = .ok (.select [⟨.star, []⟩] tableName none))
    {table : Option TableInfo}
    (hfrom : bindFrom (engineAfter texts).catalog.getTable tableName = .ok table)
    {all later : QueryResult}
    (hall : (execute (engineAfter (texts ++ more)) sqlAll).1 = .ok all)
    (hsize : ∀ row ∈ all.rows, (rowBytes row).length = n)
    (hlater : (execute (engineAfter (texts ++ more)) sql).1 = .ok later) :
    ∃ rows, (execute (engineAfter texts) sql).1 = .ok ⟨later.columns, rows⟩
      ∧ rows <+: later.rows := by
  have hdb := engineAfter_consistent texts
  have hgrows : (engineAfter texts).Grows (engineAfter (texts ++ more)) := by
    rw [engineAfter, engineAfter, Run.final_append]
    exact Database.Consistent.run_grows more hdb
  have hfrom' := hgrows.bindFrom hfrom
  obtain ⟨later, bounds, d, hfound, hbounds, hd, hyields⟩ :=
    (execute_select_iff (engineAfter_consistent _) hparse).mp hlater
  cases hfrom'.symm.trans hfound
  -- the rows that `SELECT *` shows are those that are stored
  have hrows : (engineAfter texts).sourceRows (table.getD {})
      <+: (engineAfter (texts ++ more)).sourceRows (table.getD {}) := by
    rcases (bindFrom_ok hdb hfrom).1 with hnone | ⟨key, hkey⟩
    · rw [hnone]
      exact List.prefix_refl _
    · refine (engineAfter_appends texts more).rows key _ hkey n fun row hrow => hsize row ?_
      cases table with
      | none =>
          obtain ⟨_, _, _, hfrom', hstar, -⟩ :=
            (execute_select_iff (engineAfter_consistent _) hparseAll).mp hall
          cases hfound.symm.trans hfrom'
          cases hstar
      | some table =>
          rw [execute_star (engineAfter_consistent _) hparseAll hfound] at hall
          cases hall
          exact hrow
  obtain ⟨hdecided, hevaluates, rfl⟩ := hyields
  refine ⟨_, (execute_select_iff hdb hparse).mpr ⟨table, bounds, d, hfrom, hbounds, hd,
    fun row hrow => hdecided row (hrows.subset hrow),
    fun row hrow => hevaluates row (hrows.subset hrow), rfl⟩, ?_⟩
  exact (hrows.filter _).map _

/-- Two rows of two integers. -/
theorem select_in_insertion_order_pairs :
    let texts := [ascii "CREATE TABLE t (a INT, b INT)", ascii "INSERT INTO t VALUES (2, 0)"]
    let more := [ascii "INSERT INTO t VALUES (1, 0)"]
    (execute (engineAfter (texts ++ more)) (ascii "SELECT a FROM t")).1
        = .ok ⟨[ascii "a"], [[.integer 2], [.integer 1]]⟩
      ∧ ∃ rows, (execute (engineAfter texts) (ascii "SELECT a FROM t")).1
          = .ok ⟨[ascii "a"], rows⟩
        ∧ rows <+: [[.integer 2], [.integer 1]] := by
  intro texts more
  have hparse : parseSql (ascii "SELECT a FROM t")
      = .ok (.select [⟨.columnRef (ascii "a"), []⟩] (ascii "t") none) := by decide
  have hparseAll : parseSql (ascii "SELECT * FROM t")
      = .ok (.select [⟨.star, []⟩] (ascii "t") none) := by decide
  obtain ⟨hlater, hall, hfrom⟩ : (execute (engineAfter (texts ++ more)) (ascii "SELECT a FROM t")).1
        = .ok ⟨[ascii "a"], [[.integer 2], [.integer 1]]⟩
      ∧ (execute (engineAfter (texts ++ more)) (ascii "SELECT * FROM t")).1
        = .ok ⟨[ascii "a", ascii "b"], [[.integer 2, .integer 0], [.integer 1, .integer 0]]⟩
      ∧ (okValue (bindFrom (engineAfter texts).catalog.getTable (ascii "t"))).isSome = true := by
    decide +kernel
  obtain ⟨table, htable⟩ := Option.isSome_iff_exists.mp hfrom
  exact ⟨hlater, @select_in_insertion_order 18 texts more _ _ _ _ _ hparse hparseAll _
    (okValue_eq_some_iff.mp htable) _ _ hall
    (List.forall_mem_cons.mpr ⟨rfl, List.forall_mem_singleton.mpr rfl⟩) hlater⟩

end MattSql
