import MattSql.CommuteProofs
import MattSql.HeapIdsProofs
import MattSql.Library.FiniteMapProofs

/-! # Tables on their own

    What a run of texts answers about some tables, and what it stores in them,
    is decided by the texts that name these tables.  The other texts might as
    well not be there, and it does not matter how the texts about different
    tables are interleaved (`tables_isolated`).

    Tables share the supply of ids.  A text takes at most one, for a table or
    for a page, so runs that are not absurdly long never use it up
    (`engineAfter_hasRoom`). -/

namespace MattSql

/-! ## Room -/

/-- Tables and pages. -/
def Database.size (db : Database) : Nat :=
  (db.storage.tables.entries.map fun entry => entry.2.heap.pages.length + 1).sum

section

variable {db : Database}

theorem Database.hasRoom_iff_size : db.HasRoom ↔ db.size + 2 < 2 ^ 64 := by
  have hsize : db.size = db.pageCount + db.tableCount := by
    have hcard : db.tableCount = db.storage.tables.entries.card := Multiset.card_map _ _
    rw [Database.size, Multiset.sum_map_add, hcard, Database.pageCount]
    simp
  rw [Database.HasRoom, hsize]
  omega

/-- An insert adds at most one page. -/
theorem PageHeapTable.WellFormed.insert_length_le {heap : PageHeapTable} (h : heap.WellFormed)
    (hsize : heap.pageSize = kDefaultPageSize) (record : Bytes) :
    (heap.insert record).2.pages.length ≤ heap.pages.length + 1 := by
  by_cases hopen : heap.OpensPage record
  · exact (h.insert_length_of_opensPage hsize hopen).le
  · exact (h.insert_length_of_not_opensPage hopen).le.trans (Nat.le_succ _)

theorem PageHeapTable.WellFormed.insertRows_length_le {heap : PageHeapTable}
    (h : heap.WellFormed) (hsize : heap.pageSize = kDefaultPageSize) (schema : TableSchema)
    (row : List Value) :
    (insertRows schema [row] heap).2.pages.length ≤ heap.pages.length + 1 := by
  rw [insertRows]
  split
  · exact Nat.le_succ _
  · cases encode schema row with
    | error st => exact Nat.le_succ _
    | ok tuple =>
        have hinsert := h.insert_length_le hsize tuple
        dsimp only
        generalize heap.insert tuple = reply at hinsert ⊢
        obtain ⟨st | id, heap'⟩ := reply
        · exact hinsert
        · exact hinsert

/-- A text that binds takes room for one table or one page. -/
theorem BoundIn.size_le (hdb : db.Consistent) {bound : BoundStatement} (h : BoundIn db bound) :
    (runBound {} bound db).2.size ≤ db.size + 1 := by
  cases h with
  | select hb hfrom =>
      rw [hb.run hdb hfrom]
      exact Nat.le_succ _
  | @insert key table values hfound hb =>
      obtain ⟨data, hs⟩ := hdb.tables key table hfound
      obtain ⟨hfailed, hrow⟩ := hs.runInsert_eq hdb hfound hb
      cases heval : evaluateExpressions values {} with
      | error st =>
          rw [hfailed st heval]
          exact Nat.le_succ _
      | ok row =>
          have hpages := hs.wellFormed.insertRows_length_le hs.page_size table.schema row
          rw [hrow row heval]
          rw [Database.size, Database.size, InMemoryTableStorageManager.storeHeap]
          rw [hs.heap_found]
          dsimp only
          -- the heap of the table is replaced by one with another page at most
          rw [FiniteMap.entries_insert, FiniteMap.entries_of_lookup hs.heap_found]
          simp only [Multiset.map_cons, Multiset.sum_cons]
          omega
  | @createTable request hname hne hnew hvalid =>
      have hrun := hdb.runCreateTable hname hne hnew hvalid
      generalize runBound {} (.createTable request) db = reply at hrun ⊢
      cases hrun with
      | exhausted _ _ _ => exact Nat.le_succ _
      | created _ _ => exact (FiniteMap.sum_insert_le _).trans (Nat.add_comm _ _).le

theorem Database.Consistent.size_le (hdb : db.Consistent) (sql : Bytes) :
    (MattSql.execute db sql).2.size ≤ db.size + 1 := by
  rw [MattSql.execute, executeIn]
  cases hparse : parseSql sql with
  | error st => exact Nat.le_succ _
  | ok statement =>
      dsimp only
      cases hbind : bind db.catalog.getTable statement with
      | error st => exact Nat.le_succ _
      | ok bound => exact (hdb.boundIn hparse hbind).size_le hdb

/-- **ROOM**: a run of fewer than `2 ^ 64 - 2` texts has room for another one. -/
theorem engineAfter_hasRoom {texts : List Bytes} (hlength : texts.length + 2 < 2 ^ 64) :
    (engineAfter texts).HasRoom := by
  have hrun : ∀ (texts : List Bytes) (db : Database), db.Consistent →
      (Run.final execute db texts).size ≤ db.size + texts.length := by
    intro texts
    induction texts with
    | nil => exact fun db _ => Nat.le_refl _
    | cons sql texts ih =>
        intro db hdb
        have hstep := hdb.size_le sql
        have hrest := ih (MattSql.execute db sql).2 (hdb.execute sql)
        rw [Run.final, List.length_cons]
        omega
  have hsize := hrun texts {} Database.consistent_empty
  have hempty : Database.size {} = 0 := rfl
  rw [Database.hasRoom_iff_size, engineAfter]
  omega

end

/-! ## Isolation -/

/-- The text names a table of the group, given by folded names. -/
def namesIn (group : Bytes → Bool) (sql : Bytes) : Bool := (namedTable sql).any group

/-- A run without the texts that are not about the group. -/
theorem engineAfter_purge (group : Bytes → Bool) {texts : List Bytes}
    (hlength : texts.length + 2 < 2 ^ 64) :
    (Run.trace execute {} texts).filter (fun call => namesIn group call.1)
        = Run.trace execute {} (texts.filter (namesIn group))
      ∧ ∀ key, group key = true →
        (engineAfter texts).contents key
          = (engineAfter (texts.filter (namesIn group))).contents key := by
  have hroom : ∀ part : List Bytes, part.length ≤ texts.length →
      ∀ n, (Run.final execute {} (part.take n)).HasRoom := by
    intro part hpart n
    refine engineAfter_hasRoom ?_
    have htake := List.length_take_le' n part
    omega
  refine execute_local.purge (K := fun key => group key = true) ?_ ?_ texts {} {}
    Database.consistent_empty Database.consistent_empty (hroom texts (Nat.le_refl _))
    (hroom _ (List.length_filter_le _ _)) fun _ _ => rfl
  · intro sql key hp hkey
    rw [namesIn, hkey] at hp
    exact hp
  · intro sql key hp hkey hin
    rw [namesIn, hkey] at hp
    exact Bool.false_ne_true (hp.symm.trans hin)

/-- **TABLES ARE ISOLATED.**  Take two runs, and any group of tables.  If the
    runs have the same texts about tables of the group, in the same order, then
    these texts get the same replies, and the tables of the group are stored
    alike in the end, whatever else the runs do in between. -/
theorem tables_isolated (group : Bytes → Bool) (texts others : List Bytes)
    (hlength : texts.length + 2 < 2 ^ 64) (hothers : others.length + 2 < 2 ^ 64)
    (hsame : texts.filter (namesIn group) = others.filter (namesIn group)) :
    (Run.trace execute {} texts).filter (fun call => namesIn group call.1)
        = (Run.trace execute {} others).filter (fun call => namesIn group call.1)
      ∧ ∀ key, group key = true →
        (engineAfter texts).contents key = (engineAfter others).contents key := by
  obtain ⟨hreplies, hcontents⟩ := engineAfter_purge group hlength
  obtain ⟨hreplies', hcontents'⟩ := engineAfter_purge group hothers
  rw [hsame] at hreplies hcontents
  exact ⟨hreplies.trans hreplies'.symm,
    fun key hkey => (hcontents key hkey).trans (hcontents' key hkey).symm⟩

/-- Another table and a failure come between the texts about a table. -/
theorem tables_isolated_between :
    let group : Bytes → Bool := fun key => key = ascii "t"
    let texts := [ascii "CREATE TABLE u (b INT)", ascii "CREATE TABLE t (a INT)",
      ascii "INSERT INTO u VALUES (1 / 0)", ascii "INSERT INTO T VALUES (7)",
      ascii "SELECT * FROM u", ascii "SELECT a FROM t"]
    let others := [ascii "CREATE TABLE t (a INT)", ascii "INSERT INTO T VALUES (7)",
      ascii "SELECT a FROM t"]
    (Run.trace execute {} texts).filter (fun call => namesIn group call.1)
        = (Run.trace execute {} others).filter (fun call => namesIn group call.1)
      ∧ (engineAfter texts).contents (ascii "t") = (engineAfter others).contents (ascii "t") := by
  intro group texts others
  have hsame : texts.filter (namesIn group) = others.filter (namesIn group) := by decide +kernel
  obtain ⟨hreplies, hcontents⟩ :=
    tables_isolated group texts others (by decide) (by decide) hsame
  exact ⟨hreplies, hcontents _ (by decide)⟩

end MattSql
