import MattSql.CatalogInvariantProofs

/-! # The hosted catalog API

    `catalog/hosted_catalog_api.cpp` under calls with arbitrary arguments, not
    only those `InMemoryCatalog` makes.

    Index metadata is kept twice: in the table, and by table and key.
    `IndexViewsAgree` says that the two show the same indexes.  Every call keeps
    that but two: a table may be stored with a list of its own, and an update
    replaces the list by the caller's, who may have loaded the table before an
    index was stored.  `hosted_catalog_run` says exactly when a run stays clear
    of both. -/

namespace MattSql

open FiniteMap

/-! ## Calls -/

/-- The calls that change the metadata; the loads are const. -/
inductive HostedCall where
  | allocateTableId
  | allocateIndexId
  | storeTable (key : Bytes) (table : TableInfo)
  | eraseTable (key : Bytes)
  | updateTable (table : TableInfo)
  | storeIndex (tableKey indexKey : Bytes) (index : IndexInfo)

inductive HostedReply where
  | id (id : Nat)
  | table (result : Result TableInfo)
  | index (result : Result IndexInfo)
  | status (result : Result Unit)

def hostedStep (catalog : InMemoryCatalog) : HostedCall → HostedReply × InMemoryCatalog
  | .allocateTableId => (.id catalog.allocateTableId.1, catalog.allocateTableId.2)
  | .allocateIndexId => (.id catalog.allocateIndexId.1, catalog.allocateIndexId.2)
  | .storeTable key table =>
    (.table (catalog.storeTable key table).1, (catalog.storeTable key table).2)
  | .eraseTable key => (.status (catalog.eraseTable key).1, (catalog.eraseTable key).2)
  | .updateTable table => (.status (catalog.updateTable table).1, (catalog.updateTable table).2)
  | .storeIndex tableKey indexKey index =>
    (.index (catalog.storeIndex tableKey indexKey index).1,
      (catalog.storeIndex tableKey indexKey index).2)

/-- A call that stores an index with the id. -/
def StoresIndexId (id : Nat) : HostedCall × HostedReply → Prop
  | (.storeIndex _ _ index, .index (.ok _)) => index.id = id
  | _ => False

/-- The two views of the indexes agree. -/
structure InMemoryCatalog.IndexViewsAgree (catalog : InMemoryCatalog) : Prop where
  /-- What is found for a table under some key is what the table lists. -/
  listed : ∀ key table, catalog.loadTable key = .ok table → ∀ index,
    (∃ indexKey, catalog.loadIndex key indexKey = .ok index) ↔ index ∈ table.indexes
  /-- Erasing a table frees the ids of its indexes, whichever view shows them:
      until an id is stored again it is not refused. -/
  freed : ∀ key table, catalog.loadTable key = .ok table → ∀ index,
    (index ∈ table.indexes ∨ ∃ indexKey, catalog.loadIndex key indexKey = .ok index) →
    ∀ calls, (∀ entry ∈ Run.trace hostedStep (catalog.eraseTable key).2 calls,
      ¬StoresIndexId index.id entry) →
    ∀ tableKey indexKey other, other.id = index.id →
      ((Run.final hostedStep (catalog.eraseTable key).2 calls).storeIndex tableKey indexKey other).1
        ≠ errorResult .alreadyExists (ascii "index id already exists")

/-- What a call may not do: store a table with a list of indexes, or replace the
    list of a table by one with other members. -/
def InMemoryCatalog.KeepsIndexes (catalog : InMemoryCatalog) : HostedCall → Prop
  | .storeTable key table =>
    key ∉ catalog.tablesByName → table.id ∉ catalog.tableNamesById → table.indexes = []
  | .updateTable table => ∀ stored, catalog.loadTableById table.id = .ok stored →
    ∀ index, index ∈ table.indexes ↔ index ∈ stored.indexes
  | _ => True

/-! ## What each call can do -/

/-- Names and ids lead to each other, and only tables have indexes. -/
structure InMemoryCatalog.Linked (catalog : InMemoryCatalog) : Prop where
  byName : ∀ key table, catalog.tablesByName.lookup key = some table →
    catalog.tableNamesById.lookup table.id = some key
  byId : ∀ id key, catalog.tableNamesById.lookup id = some key →
    ∃ table, catalog.tablesByName.lookup key = some table ∧ table.id = id
  entries : ∀ key ∈ catalog.indexesByTableName, key ∈ catalog.tablesByName

theorem InMemoryCatalog.linked_empty : InMemoryCatalog.Linked {} where
  byName _ _ h := nomatch h
  byId _ _ h := nomatch h
  entries _ h := absurd h Finmap.notMem_empty

variable {catalog : InMemoryCatalog}

theorem InMemoryCatalog.storeTable_cases (catalog : InMemoryCatalog) (key : Bytes)
    (table : TableInfo) :
    (∃ st, ¬(key ∉ catalog.tablesByName ∧ table.id ∉ catalog.tableNamesById)
        ∧ catalog.storeTable key table = (.error st, catalog))
      ∨ key ∉ catalog.tablesByName ∧ table.id ∉ catalog.tableNamesById
        ∧ catalog.storeTable key table = (.ok table,
          { catalog with
            tableNamesById := catalog.tableNamesById.insert table.id key
            tablesByName := catalog.tablesByName.insert key table }) := by
  rw [InMemoryCatalog.storeTable]
  by_cases hkey : key ∈ catalog.tablesByName
  · rw [if_pos hkey]
    exact .inl ⟨_, fun hfree => hfree.1 hkey, rfl⟩
  by_cases hid : table.id ∈ catalog.tableNamesById
  · rw [if_neg hkey, if_pos hid]
    exact .inl ⟨_, fun hfree => hfree.2 hid, rfl⟩
  · rw [if_neg hkey, if_neg hid]
    exact .inr ⟨hkey, hid, rfl⟩

theorem InMemoryCatalog.eraseTable_cases (catalog : InMemoryCatalog) (key : Bytes) :
    (∃ st, catalog.eraseTable key = (.error st, catalog))
      ∨ ∃ table, catalog.tablesByName.lookup key = some table
        ∧ catalog.eraseTable key = (.ok (), catalog.withoutTable key table) := by
  rw [InMemoryCatalog.eraseTable]
  cases hlookup : catalog.tablesByName.lookup key with
  | none => exact .inl ⟨_, rfl⟩
  | some table => exact .inr ⟨table, rfl, rfl⟩

theorem InMemoryCatalog.Linked.updateTable_cases (h : catalog.Linked) (table : TableInfo) :
    (∃ st, (∀ stored, catalog.loadTableById table.id ≠ .ok stored)
        ∧ catalog.updateTable table = (.error st, catalog))
      ∨ ∃ key stored, catalog.loadTableById table.id = .ok stored ∧ stored.id = table.id
        ∧ catalog.tablesByName.lookup key = some stored
        ∧ catalog.updateTable table
          = (.ok (), catalog.replaceTable key { table with name := stored.name }) := by
  unfold InMemoryCatalog.updateTable InMemoryCatalog.loadTableById
  cases hname : catalog.tableNamesById.lookup table.id with
  | none => exact .inl ⟨_, fun _ => nofun, rfl⟩
  | some key =>
      obtain ⟨stored, hstored, hid⟩ := h.byId table.id key hname
      dsimp only
      rw [hstored]
      exact .inr ⟨key, stored, rfl, hid, hstored, rfl⟩

/-- Storing an index fails, and at most makes an empty entry, or adds it to all
    views under a new id and key. -/
theorem InMemoryCatalog.storeIndex_cases (catalog : InMemoryCatalog) (tableKey indexKey : Bytes)
    (index : IndexInfo) :
    (∃ st, catalog.storeIndex tableKey indexKey index = (.error st, catalog))
      ∨ (∃ st table, catalog.tablesByName.lookup tableKey = some table
        ∧ catalog.storeIndex tableKey indexKey index = (.error st,
          { catalog with
            indexesByTableName := catalog.indexesByTableName.insert tableKey
              (catalog.tableIndexes tableKey) }))
      ∨ ∃ table, catalog.tablesByName.lookup tableKey = some table
        ∧ index.id ∉ catalog.indexKeysById ∧ indexKey ∉ catalog.tableIndexes tableKey
        ∧ catalog.storeIndex tableKey indexKey index = (.ok index,
          { catalog with
            tablesByName := catalog.tablesByName.insert tableKey
              { table with indexes := table.indexes ++ [index] }
            indexesByTableName := catalog.indexesByTableName.insert tableKey
              ((catalog.tableIndexes tableKey).insert indexKey index)
            indexKeysById := catalog.indexKeysById.insert index.id (tableKey, indexKey) }) := by
  rw [InMemoryCatalog.storeIndex]
  cases htable : catalog.tablesByName.lookup tableKey with
  | none => exact .inl ⟨_, rfl⟩
  | some table =>
      dsimp only
      by_cases howner : index.tableId ≠ table.id
      · rw [if_pos howner]
        exact .inl ⟨_, rfl⟩
      by_cases hid : index.id ∈ catalog.indexKeysById
      · rw [if_neg howner, if_pos hid]
        exact .inl ⟨_, rfl⟩
      rw [if_neg howner, if_neg hid]
      by_cases hkey : indexKey ∈ catalog.tableIndexes tableKey
      · rw [if_pos (show indexKey ∈ (catalog.indexesByTableName.lookup tableKey).getD ∅ from hkey)]
        exact .inr (.inl ⟨_, table, rfl, rfl⟩)
      · rw [if_neg (show indexKey ∉ (catalog.indexesByTableName.lookup tableKey).getD ∅ from hkey)]
        exact .inr (.inr ⟨table, rfl, hid, hkey, rfl⟩)

/-- A table is replaced by one with its id. -/
theorem InMemoryCatalog.Linked.replaceTable (h : catalog.Linked) {key : Bytes}
    {stored table : TableInfo} (hstored : catalog.tablesByName.lookup key = some stored)
    (hid : table.id = stored.id) : (catalog.replaceTable key table).Linked where
  byName := by
    intro other table' hlookup
    rcases lookup_insert_cases hlookup with ⟨rfl, rfl⟩ | ⟨-, hold⟩
    · rw [hid]
      exact h.byName other stored hstored
    · exact h.byName other table' hold
  byId := by
    intro id other hlookup
    obtain ⟨table', hname, hid'⟩ := h.byId id other hlookup
    rcases lookup_insert_over hstored hname table with ⟨rfl, rfl, hnew⟩ | hold
    · exact ⟨table, hnew, hid.trans hid'⟩
    · exact ⟨table', hold, hid'⟩
  entries other hmem := Finmap.mem_insert.mpr (.inr (h.entries other hmem))

/-- Every call keeps names and ids together. -/
theorem InMemoryCatalog.Linked.hostedStep (h : catalog.Linked) (call : HostedCall) :
    (hostedStep catalog call).2.Linked := by
  cases call with
  | allocateTableId => exact ⟨h.byName, h.byId, h.entries⟩
  | allocateIndexId => exact ⟨h.byName, h.byId, h.entries⟩
  | storeTable key table =>
      show (catalog.storeTable key table).2.Linked
      rcases catalog.storeTable_cases key table with ⟨st, -, heq⟩ | ⟨hkey, hid, heq⟩
      · rw [heq]
        exact h
      rw [heq]
      refine ⟨fun other table' hlookup => ?_, fun id other hlookup => ?_, fun other hmem =>
        Finmap.mem_insert.mpr (.inr (h.entries other hmem))⟩
      · rcases lookup_insert_cases hlookup with ⟨rfl, rfl⟩ | ⟨-, hold⟩
        · exact Finmap.lookup_insert _
        · have hname := h.byName other table' hold
          exact (Finmap.lookup_insert_of_ne _ (ne_of_lookup_of_notMem hname hid)).trans hname
      · rcases lookup_insert_cases hlookup with ⟨rfl, rfl⟩ | ⟨-, hold⟩
        · exact ⟨table, Finmap.lookup_insert _, rfl⟩
        · obtain ⟨table', hname, hid'⟩ := h.byId id other hold
          exact ⟨table', (Finmap.lookup_insert_of_ne _
            (ne_of_lookup_of_notMem hname hkey)).trans hname, hid'⟩
  | eraseTable key =>
      show (catalog.eraseTable key).2.Linked
      rcases catalog.eraseTable_cases key with ⟨st, heq⟩ | ⟨table, htable, heq⟩
      · rw [heq]
        exact h
      rw [heq]
      refine ⟨fun other table' hlookup => ?_, fun id other hlookup => ?_, fun other hmem => ?_⟩
      · obtain ⟨hne, hold⟩ := lookup_erase_cases hlookup
        have hname := h.byName other table' hold
        -- another table has another id
        have hid : table'.id ≠ table.id := by
          intro heq
          rw [heq, h.byName key table htable] at hname
          exact hne (Option.some.inj hname).symm
        exact (Finmap.lookup_erase_ne hid).trans hname
      · obtain ⟨hne, hold⟩ := lookup_erase_cases hlookup
        obtain ⟨table', hname, hid⟩ := h.byId id other hold
        have hother : other ≠ key := by
          rintro rfl
          obtain rfl := Option.some.inj (hname.symm.trans htable)
          exact hne hid.symm
        exact ⟨table', (Finmap.lookup_erase_ne hother).trans hname, hid⟩
      · obtain ⟨hne, hold⟩ := Finmap.mem_erase.mp hmem
        exact Finmap.mem_erase.mpr ⟨hne, h.entries other hold⟩
  | updateTable table =>
      show (catalog.updateTable table).2.Linked
      rcases h.updateTable_cases table with ⟨st, -, heq⟩ | ⟨key, stored, -, hid, hstored, heq⟩
      · rw [heq]
        exact h
      rw [heq]
      exact h.replaceTable hstored hid.symm
  | storeIndex tableKey indexKey index =>
      show (catalog.storeIndex tableKey indexKey index).2.Linked
      rcases catalog.storeIndex_cases tableKey indexKey index with
        ⟨st, heq⟩ | ⟨st, table, htable, heq⟩ | ⟨table, htable, -, -, heq⟩
      · rw [heq]
        exact h
      · rw [heq]
        refine ⟨h.byName, h.byId, fun other hmem => ?_⟩
        rcases Finmap.mem_insert.mp hmem with rfl | hold
        · exact Finmap.mem_iff.mpr ⟨table, htable⟩
        · exact h.entries other hold
      · rw [heq]
        have hreplaced := h.replaceTable htable
          (show ({ table with indexes := table.indexes ++ [index] } : TableInfo).id = table.id
            from rfl)
        refine ⟨hreplaced.byName, hreplaced.byId, fun other hmem => ?_⟩
        rcases Finmap.mem_insert.mp hmem with rfl | hold
        · exact Finmap.mem_insert.mpr (.inl rfl)
        · exact hreplaced.entries other hold

/-! ## The two views -/

/-- The two views on the maps themselves. -/
def InMemoryCatalog.ListsFound (catalog : InMemoryCatalog) : Prop :=
  ∀ key table, catalog.tablesByName.lookup key = some table → ∀ index,
    (∃ indexKey, (catalog.tableIndexes key).lookup indexKey = some index) ↔ index ∈ table.indexes

/-- Tables are stored over the same indexes: the views agree when they do for
    each table. -/
theorem InMemoryCatalog.ListsFound.of_lookup {after : InMemoryCatalog} (h : catalog.ListsFound)
    (htables : ∀ key table, after.tablesByName.lookup key = some table →
      catalog.tablesByName.lookup key = some table
        ∧ after.tableIndexes key = catalog.tableIndexes key) : after.ListsFound := by
  intro key table hlookup index
  obtain ⟨hold, hindexes⟩ := htables key table hlookup
  rw [hindexes]
  exact h key table hold index

theorem InMemoryCatalog.tableIndexes_insert (catalog : InMemoryCatalog) (key other : Bytes)
    (indexes : Finmap fun _ : Bytes => IndexInfo) :
    InMemoryCatalog.tableIndexes
        { catalog with indexesByTableName := catalog.indexesByTableName.insert key indexes } other
      = if other = key then indexes else catalog.tableIndexes other := by
  show ((catalog.indexesByTableName.insert key indexes).lookup other).getD ∅ = _
  by_cases hother : other = key
  · subst hother
    rw [if_pos rfl, Finmap.lookup_insert]
    rfl
  · rw [if_neg hother, Finmap.lookup_insert_of_ne _ hother]
    rfl

/-- A table that is stored has no indexes to be found, so it may list none. -/
theorem InMemoryCatalog.ListsFound.storeTable_iff (h : catalog.ListsFound)
    (hlinked : catalog.Linked) (key : Bytes) (table : TableInfo) :
    (catalog.storeTable key table).2.ListsFound
      ↔ catalog.KeepsIndexes (.storeTable key table) := by
  rcases catalog.storeTable_cases key table with ⟨st, hused, heq⟩ | ⟨hkey, hid, heq⟩
  · rw [heq]
    exact iff_of_true h fun hkey hid => absurd ⟨hkey, hid⟩ hused
  rw [heq]
  have hnone : ∀ indexKey, (catalog.tableIndexes key).lookup indexKey = none := by
    intro indexKey
    rw [InMemoryCatalog.tableIndexes,
      Finmap.lookup_eq_none.mpr fun hmem => hkey (hlinked.entries key hmem)]
    rfl
  constructor
  · intro hafter _ _
    refine List.eq_nil_iff_forall_not_mem.mpr fun index hindex => ?_
    obtain ⟨indexKey, hfound⟩ :=
      (hafter key table (Finmap.lookup_insert _) index).mpr hindex
    cases (hnone indexKey).symm.trans hfound
  · intro hkeeps other table' hlookup index
    rcases lookup_insert_cases hlookup with ⟨rfl, rfl⟩ | ⟨-, hold⟩
    · rw [hkeeps hkey hid]
      refine iff_of_false ?_ List.not_mem_nil
      rintro ⟨indexKey, hfound⟩
      cases (hnone indexKey).symm.trans hfound
    · exact h other table' hold index

/-- An update must list what is found. -/
theorem InMemoryCatalog.ListsFound.updateTable_iff (h : catalog.ListsFound)
    (hlinked : catalog.Linked) (table : TableInfo) :
    (catalog.updateTable table).2.ListsFound ↔ catalog.KeepsIndexes (.updateTable table) := by
  rcases hlinked.updateTable_cases table with
    ⟨st, hnone, heq⟩ | ⟨key, stored, hload, -, hstored, heq⟩
  · rw [heq]
    exact iff_of_true h fun stored hload => absurd hload (hnone stored)
  rw [heq]
  constructor
  · intro hafter stored' hload' index
    obtain rfl := Except.ok.inj (hload.symm.trans hload')
    exact (hafter key _ (Finmap.lookup_insert _) index).symm.trans (h key stored hstored index)
  · intro hkeeps other table' hlookup index
    rcases lookup_insert_cases hlookup with ⟨rfl, rfl⟩ | ⟨-, hold⟩
    · exact (h other stored hstored index).trans (hkeeps stored hload index).symm
    · exact h other table' hold index

/-- An index goes into both views. -/
theorem InMemoryCatalog.ListsFound.storeIndex (h : catalog.ListsFound) (tableKey indexKey : Bytes)
    (index : IndexInfo) : (catalog.storeIndex tableKey indexKey index).2.ListsFound := by
  rcases catalog.storeIndex_cases tableKey indexKey index with
    ⟨st, heq⟩ | ⟨st, table, -, heq⟩ | ⟨table, htable, -, hnew, heq⟩
  · rw [heq]
    exact h
  · rw [heq]
    refine h.of_lookup fun key table' hlookup => ⟨hlookup, ?_⟩
    rw [InMemoryCatalog.tableIndexes_insert]
    split
    · rename_i hkey
      rw [hkey]
    · rfl
  · rw [heq]
    intro key table' hlookup other
    have hindexes := catalog.tableIndexes_insert tableKey key
      ((catalog.tableIndexes tableKey).insert indexKey index)
    show (∃ otherKey, Finmap.lookup otherKey (InMemoryCatalog.tableIndexes
      { catalog with
        indexesByTableName := catalog.indexesByTableName.insert tableKey
          ((catalog.tableIndexes tableKey).insert indexKey index) } key) = some other) ↔ _
    rw [hindexes]
    rcases lookup_insert_cases hlookup with ⟨rfl, rfl⟩ | ⟨hne, hold⟩
    · rw [if_pos rfl]
      show _ ↔ other ∈ table.indexes ++ [index]
      rw [List.mem_append, List.mem_singleton, ← h key table htable other]
      constructor
      · rintro ⟨otherKey, hfound⟩
        rcases lookup_insert_cases hfound with ⟨-, rfl⟩ | ⟨-, hfound⟩
        · exact .inr rfl
        · exact .inl ⟨otherKey, hfound⟩
      · rintro (⟨otherKey, hfound⟩ | rfl)
        · exact ⟨otherKey, (Finmap.lookup_insert_of_ne _
            (ne_of_lookup_of_notMem hfound hnew)).trans hfound⟩
        · exact ⟨indexKey, Finmap.lookup_insert _⟩
    · rw [if_neg hne]
      exact h key table' hold other

theorem InMemoryCatalog.ListsFound.eraseTable (h : catalog.ListsFound) (key : Bytes) :
    (catalog.eraseTable key).2.ListsFound := by
  rcases catalog.eraseTable_cases key with ⟨st, heq⟩ | ⟨table, -, heq⟩
  · rw [heq]
    exact h
  · rw [heq]
    refine h.of_lookup fun other table' hlookup => ?_
    obtain ⟨hne, hold⟩ := lookup_erase_cases hlookup
    refine ⟨hold, ?_⟩
    show ((catalog.indexesByTableName.erase key).lookup other).getD ∅ = _
    rw [Finmap.lookup_erase_ne hne]
    rfl

/-- **ONE CALL** keeps the views together exactly under its condition. -/
theorem hostedStep_listsFound_iff (hlinked : catalog.Linked) (h : catalog.ListsFound)
    (call : HostedCall) : (hostedStep catalog call).2.ListsFound ↔ catalog.KeepsIndexes call := by
  cases call with
  | allocateTableId => exact iff_of_true h trivial
  | allocateIndexId => exact iff_of_true h trivial
  | storeTable key table => exact h.storeTable_iff hlinked key table
  | eraseTable key => exact iff_of_true (h.eraseTable key) trivial
  | updateTable table => exact h.updateTable_iff hlinked table
  | storeIndex tableKey indexKey index =>
      exact iff_of_true (h.storeIndex tableKey indexKey index) trivial

/-! ## Ids that are free again -/

/-- Only storing an index takes an id. -/
theorem hostedStep_takes {id : Nat} {call : HostedCall}
    (h : id ∈ (hostedStep catalog call).2.indexKeysById) :
    id ∈ catalog.indexKeysById ∨ StoresIndexId id (call, (hostedStep catalog call).1) := by
  cases call with
  | allocateTableId => exact .inl h
  | allocateIndexId => exact .inl h
  | storeTable key table =>
      rw [hostedStep] at h
      rcases catalog.storeTable_cases key table with ⟨st, -, heq⟩ | ⟨-, -, heq⟩
      · rw [heq] at h
        exact .inl h
      · rw [heq] at h
        exact .inl h
  | eraseTable key =>
      rw [hostedStep] at h
      rcases catalog.eraseTable_cases key with ⟨st, heq⟩ | ⟨table, -, heq⟩
      · rw [heq] at h
        exact .inl h
      · rw [heq] at h
        obtain ⟨keys, hkeys⟩ := Finmap.mem_iff.mp h
        have hlookup := hkeys.symm.trans (lookup_foldl_erase IndexInfo.id table.indexes)
        split at hlookup
        · cases hlookup
        · exact .inl (Finmap.mem_iff.mpr ⟨keys, hlookup.symm⟩)
  | updateTable table =>
      refine .inl ?_
      rw [hostedStep, InMemoryCatalog.updateTable] at h
      split at h
      · exact h
      · split at h
        · exact h
        · exact h
  | storeIndex tableKey indexKey index =>
      rcases catalog.storeIndex_cases tableKey indexKey index with
        ⟨st, heq⟩ | ⟨st, table, -, heq⟩ | ⟨table, -, -, -, heq⟩
      · rw [hostedStep, heq] at h
        exact .inl h
      · rw [hostedStep, heq] at h
        exact .inl h
      · rw [hostedStep, heq] at h ⊢
        rcases Finmap.mem_insert.mp h with rfl | hold
        · exact .inr rfl
        · exact .inl hold

/-- An id that no call stores stays free.  The induction is on the calls. -/
theorem hostedRun_free {id : Nat} {calls : List HostedCall} {catalog : InMemoryCatalog}
    (hfree : id ∉ catalog.indexKeysById)
    (h : ∀ entry ∈ Run.trace hostedStep catalog calls, ¬StoresIndexId id entry) :
    id ∉ (Run.final hostedStep catalog calls).indexKeysById := by
  induction calls generalizing catalog with
  | nil => exact hfree
  | cons call calls ih =>
      refine ih (fun hmem => ?_) fun entry hentry => h entry (List.mem_cons_of_mem _ hentry)
      rcases hostedStep_takes hmem with hold | hstores
      · exact hfree hold
      · exact h _ List.mem_cons_self hstores

/-- A free id is not refused as taken. -/
theorem InMemoryCatalog.storeIndex_free {index : IndexInfo} (h : index.id ∉ catalog.indexKeysById)
    (tableKey indexKey : Bytes) :
    (catalog.storeIndex tableKey indexKey index).1
      ≠ errorResult .alreadyExists (ascii "index id already exists") := by
  have htexts : ∀ message ∈ [ascii "table not found", ascii "index table id does not match table",
      ascii "index already exists"], message ≠ ascii "index id already exists" := by decide
  have hne : ∀ {code message}, message ∈ [ascii "table not found",
      ascii "index table id does not match table", ascii "index already exists"] →
      (errorResult code message : Result IndexInfo)
        ≠ errorResult .alreadyExists (ascii "index id already exists") := by
    intro code message hmem heq
    exact htexts message hmem (Status.mk.inj (Except.error.inj heq)).2
  unfold InMemoryCatalog.storeIndex
  cases catalog.tablesByName.lookup tableKey with
  | none => exact hne List.mem_cons_self
  | some table =>
      dsimp only
      by_cases howner : index.tableId ≠ table.id
      · rw [if_pos howner]
        exact hne (List.mem_cons_of_mem _ List.mem_cons_self)
      rw [if_neg howner, if_neg h]
      split
      · exact hne (List.mem_cons_of_mem _ (List.mem_cons_of_mem _ List.mem_cons_self))
      · exact nofun

/-! ## Whole runs -/

theorem InMemoryCatalog.found_iff {key : Bytes} {table : TableInfo}
    (htable : catalog.tablesByName.lookup key = some table) (index : IndexInfo) :
    (∃ indexKey, catalog.loadIndex key indexKey = .ok index)
      ↔ ∃ indexKey, (catalog.tableIndexes key).lookup indexKey = some index := by
  refine exists_congr fun indexKey => ?_
  rw [InMemoryCatalog.loadIndex_eq htable]
  cases (catalog.tableIndexes key).lookup indexKey with
  | none => simp [errorResult]
  | some found => simp

/-- What the calls promise is that the maps agree. -/
theorem InMemoryCatalog.indexViewsAgree_iff :
    catalog.IndexViewsAgree ↔ catalog.ListsFound := by
  constructor
  · intro h key table htable index
    rw [← InMemoryCatalog.found_iff htable]
    exact h.listed key table (InMemoryCatalog.loadTable_eq_ok.mpr htable) index
  · intro h
    have hlisted : ∀ key table, catalog.loadTable key = .ok table → ∀ index,
        (∃ indexKey, catalog.loadIndex key indexKey = .ok index) ↔ index ∈ table.indexes := by
      intro key table hload index
      have htable := InMemoryCatalog.loadTable_eq_ok.mp hload
      rw [InMemoryCatalog.found_iff htable]
      exact h key table htable index
    refine ⟨hlisted, ?_⟩
    intro key table hload index hindex calls hcalls tableKey indexKey other hid
    have hmem : index ∈ table.indexes := hindex.elim id (hlisted key table hload index).mp
    -- the erased table's list is walked, so the id is free
    have hfree : index.id ∉ (catalog.eraseTable key).2.indexKeysById := by
      rw [InMemoryCatalog.eraseTable, InMemoryCatalog.loadTable_eq_ok.mp hload]
      show _ ∉ table.indexes.foldl (fun keys index => keys.erase index.id) catalog.indexKeysById
      rw [← Finmap.lookup_eq_none, lookup_foldl_erase IndexInfo.id table.indexes,
        if_pos (List.mem_map_of_mem hmem)]
    exact InMemoryCatalog.storeIndex_free (hid ▸ hostedRun_free hfree hcalls) tableKey indexKey

/-- **EVERY RUN OF THE HOSTED API.**  The views of the indexes agree at every
    point of a run exactly when every table is stored without indexes and every
    update lists the indexes that the stored table lists. -/
theorem hosted_catalog_run (calls : List HostedCall) :
    (∀ n, (Run.final hostedStep {} (calls.take n)).IndexViewsAgree)
      ↔ ∀ n call, calls[n]? = some call →
        (Run.final hostedStep {} (calls.take n)).KeepsIndexes call := by
  refine (forall_congr' fun n => InMemoryCatalog.indexViewsAgree_iff).trans ?_
  have hstart : InMemoryCatalog.ListsFound {} := fun _ _ h => nomatch h
  exact @Run.forall_final_iff InMemoryCatalog HostedCall HostedReply Unit hostedStep
    (fun _ _ => ()) (fun catalog _ => catalog.Linked) (fun catalog _ => catalog.ListsFound)
    (fun catalog _ call => catalog.KeepsIndexes call) (fun _ _ call h => h.hostedStep call)
    (fun _ _ call h hlists => hostedStep_listsFound_iff h hlists call) calls {} ()
    InMemoryCatalog.linked_empty hstart

def staleTable : TableInfo := { id := 1, name := ascii "t" }

def staleIndex : IndexInfo :=
  { id := 1, name := ascii "i", tableId := 1, schema := { name := ascii "i", keyColumns := [0] } }

/-- A table is loaded, an index is stored, and the loaded table is written back
    with a heap root. -/
def staleUpdate : List HostedCall :=
  [.storeTable (ascii "t") staleTable, .storeIndex (ascii "t") (ascii "i") staleIndex,
    .updateTable { staleTable with heapRootPageId := 7 }]

/-- **A LOST UPDATE**: the index is found and not listed, and when the table has
    been erased its id is still refused. -/
theorem staleUpdate_loses_index :
    (Run.final hostedStep {} (staleUpdate.take 1)).loadTable (ascii "t") = .ok staleTable
      ∧ (Run.final hostedStep {} staleUpdate).loadIndex (ascii "t") (ascii "i") = .ok staleIndex
      ∧ ¬(Run.final hostedStep {} staleUpdate).IndexViewsAgree
      ∧ ((Run.final hostedStep {} (staleUpdate ++ [.eraseTable (ascii "t"),
          .storeTable (ascii "t") staleTable])).storeIndex (ascii "t") (ascii "i") staleIndex).1
        = errorResult .alreadyExists (ascii "index id already exists") := by
  refine ⟨rfl, rfl, fun h => ?_, rfl⟩
  have hlisted := (h.listed (ascii "t") { staleTable with heapRootPageId := 7 } rfl staleIndex).mp
    ⟨ascii "i", rfl⟩
  exact List.not_mem_nil hlisted

end MattSql
