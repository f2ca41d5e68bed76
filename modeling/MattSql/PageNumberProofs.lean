import MattSql.EngineProofs

/-! # What page ids do not change

    A heap numbers its pages from its root, and the ids go into the record ids
    it returns.  Nothing else depends on them: `unnumbered` takes the ids out,
    and every operation of pages and heaps does the same to a heap with its ids
    and without, as long as there are ids left for another page. -/

namespace MattSql

open ByteSpan Fallible

def RecordId.unnumbered (id : RecordId) : RecordId := { id with pageId := 0 }

def Page.unnumbered (page : Page) : Page :=
  { page with header := { page.header with pageId := 0 } }

/-- The heap as if its root and all its pages had the id 0. -/
def PageHeapTable.unnumbered (heap : PageHeapTable) : PageHeapTable :=
  { heap with rootPageId := 0, pages := heap.pages.map Page.unnumbered }

variable {page : Page} {heap : PageHeapTable} {record : Bytes}

@[simp] theorem Page.unnumbered_unnumbered (page : Page) :
    page.unnumbered.unnumbered = page.unnumbered := rfl

@[simp] theorem map_unnumbered_unnumbered (pages : List Page) :
    (pages.map Page.unnumbered).map Page.unnumbered = pages.map Page.unnumbered := by
  rw [List.map_map]
  rfl

/-! ## Pages -/

theorem Page.initialize_unnumbered (page : Page) (kind : PageKind) :
    Page.initialize page.unnumbered kind
      = (( Page.initialize page kind).1, ( Page.initialize page kind).2.unnumbered) := by
  unfold Page.initialize
  by_cases hempty : page.bytes = []
  · rw [if_pos hempty, if_pos (show page.unnumbered.bytes = [] from hempty)]
  · rw [if_neg hempty, if_neg (show page.unnumbered.bytes ≠ [] from hempty)]
    by_cases hlarge : page.bytes.length > kMaxU16
    · rw [if_pos hlarge, if_pos (show page.unnumbered.bytes.length > kMaxU16 from hlarge)]
    · rw [if_neg hlarge, if_neg (show ¬ page.unnumbered.bytes.length > kMaxU16 from hlarge)]
      by_cases hfree : kind = .free
      · rw [if_pos hfree, if_pos hfree]
      · rw [if_neg hfree, if_neg hfree]
        rfl

theorem Page.insert_unnumbered (page : Page) (record : Bytes) :
    page.unnumbered.insert record
      = ((page.insert record).1, (page.insert record).2.unnumbered) := by
  unfold Page.insert
  rw [show validatePage page.unnumbered = validatePage page from rfl,
    show findDeletedSlot page.unnumbered = findDeletedSlot page from rfl,
    show MattSql.slotCount page.unnumbered.header = MattSql.slotCount page.header from rfl]
  cases validatePage page with
  | some st => rfl
  | none =>
      dsimp only [Page.unnumbered]
      split_ifs
      any_goals rfl
      all_goals
        cases store page.bytes (toU16 (page.header.upper - record.length)) record with
        | none => rfl
        | some bytes =>
            dsimp only
            cases writeSlot bytes
              ((findDeletedSlot page).getD (toU16 (MattSql.slotCount page.header)))
              ⟨toU16 (page.header.upper - record.length), toU16 record.length, 0⟩ <;> rfl

/-- Two pages that differ in their ids alone take a record alike. -/
theorem Page.insert_alike {page page' : Page} (h : page.unnumbered = page'.unnumbered)
    (record : Bytes) :
    (page.insert record).1 = (page'.insert record).1
      ∧ (page.insert record).2.unnumbered = (page'.insert record).2.unnumbered := by
  have hinsert := page.insert_unnumbered record
  rw [h, page'.insert_unnumbered record] at hinsert
  exact ⟨(congrArg Prod.fst hinsert).symm, (congrArg Prod.snd hinsert).symm⟩

/-! ## Heaps -/

theorem insertFirstFit_unnumbered (record : Bytes) (pages : List Page) :
    insertFirstFit record (pages.map Page.unnumbered)
      = ((insertFirstFit record pages).1.map (RecordId.unnumbered <$> ·),
        (insertFirstFit record pages).2.map Page.unnumbered) := by
  induction pages with
  | nil => rfl
  | cons page pages ih =>
      rw [List.map_cons, insertFirstFit, insertFirstFit, page.insert_unnumbered record, ih]
      cases page.insert record with
      | mk reply after =>
          cases reply with
          | ok slot => rfl
          | error st =>
              dsimp only
              split_ifs <;> rfl

theorem insertFirstFit_length (record : Bytes) (pages : List Page) :
    (insertFirstFit record pages).2.length = pages.length := by
  induction pages with
  | nil => rfl
  | cons page pages ih =>
      rw [insertFirstFit]
      cases page.insert record with
      | mk reply after =>
          cases reply with
          | ok slot => rfl
          | error st =>
              dsimp only
              split_ifs
              · rfl
              · rw [List.length_cons, List.length_cons, ih]

/-- With ids left, a heap and the heap without its numbers open the same page. -/
theorem PageHeapTable.allocatePage_unnumbered
    (hroom : heap.rootPageId + heap.pages.length < kInvalidPageId) :
    (∃ st, heap.allocatePage = (.error st, heap)
      ∧ heap.unnumbered.allocatePage = (.error st, heap.unnumbered))
    ∨ ∃ page page', heap.allocatePage = (.ok page, { heap with pages := heap.pages ++ [page] })
      ∧ heap.unnumbered.allocatePage
        = (.ok page', { heap.unnumbered with pages := heap.unnumbered.pages ++ [page'] })
      ∧ page.unnumbered = page'.unnumbered := by
  have hlen : heap.unnumbered.pages.length = heap.pages.length := List.length_map _
  unfold PageHeapTable.allocatePage
  rw [if_neg (show heap.rootPageId ≠ kInvalidPageId by omega),
    if_neg (show heap.unnumbered.rootPageId ≠ kInvalidPageId from
      show (0 : Nat) ≠ kInvalidPageId by decide)]
  by_cases hsize : heap.pageSize = 0
  · rw [if_pos hsize, if_pos (show heap.unnumbered.pageSize = 0 from hsize)]
    exact Or.inl ⟨_, rfl, rfl⟩
  · rw [if_neg hsize, if_neg (show heap.unnumbered.pageSize ≠ 0 from hsize),
      if_neg (show ¬ heap.pages.length > kInvalidPageId - 1 - heap.rootPageId by omega),
      if_neg (show ¬ heap.unnumbered.pages.length
        > kInvalidPageId - 1 - heap.unnumbered.rootPageId by
          rw [hlen]
          show ¬ heap.pages.length > kInvalidPageId - 1 - 0
          omega)]
    dsimp only
    -- the two frames differ in their number only
    have hframe := (heapPageFrame heap.nextPageId heap.pageSize).initialize_unnumbered .heap
    have hframe' :=
      (heapPageFrame heap.unnumbered.nextPageId heap.pageSize).initialize_unnumbered .heap
    rw [show (heapPageFrame heap.nextPageId heap.pageSize).unnumbered
      = (heapPageFrame heap.unnumbered.nextPageId heap.pageSize).unnumbered from rfl, hframe']
      at hframe
    rw [show heap.unnumbered.pageSize = heap.pageSize from rfl]
    cases hinit : Page.initialize (heapPageFrame heap.nextPageId heap.pageSize) .heap with
    | mk reply page =>
        cases hinit' :
            Page.initialize (heapPageFrame heap.unnumbered.nextPageId heap.pageSize) .heap with
        | mk reply' page' =>
            rw [hinit, hinit'] at hframe
            obtain ⟨hreply, hpage⟩ := Prod.mk.inj hframe
            dsimp only at hreply hpage
            subst hreply
            cases reply' with
            | error st => exact Or.inl ⟨st, rfl, rfl⟩
            | ok u => exact Or.inr ⟨page, page', rfl, rfl, hpage.symm⟩

/-- **INSERT DOES NOT LOOK AT THE NUMBERS**: with ids left, a heap and the heap
    without its numbers take a record alike. -/
theorem PageHeapTable.insert_unnumbered
    (hroom : heap.rootPageId + heap.pages.length < kInvalidPageId) (record : Bytes) :
    RecordId.unnumbered <$> (heap.insert record).1
        = RecordId.unnumbered <$> (heap.unnumbered.insert record).1
      ∧ (heap.insert record).2.unnumbered = (heap.unnumbered.insert record).2.unnumbered := by
  have hlength := insertFirstFit_length record heap.pages
  unfold PageHeapTable.insert
  rw [show heap.unnumbered.pages = heap.pages.map Page.unnumbered from rfl,
    insertFirstFit_unnumbered]
  cases hfirst : insertFirstFit record heap.pages with
  | mk reply pages =>
      rw [hfirst] at hlength
      cases reply with
      | some reply =>
          cases reply with
          | ok id =>
              refine ⟨rfl, ?_⟩
              simp [PageHeapTable.unnumbered]
          | error st =>
              refine ⟨rfl, ?_⟩
              simp [PageHeapTable.unnumbered]
      | none =>
          -- both open a page, and the record goes into it or the page is dropped
          have hroom' : ({ heap with pages := pages } : PageHeapTable).rootPageId
              + ({ heap with pages := pages } : PageHeapTable).pages.length < kInvalidPageId := by
            show heap.rootPageId + pages.length < kInvalidPageId
            rw [hlength]
            exact hroom
          dsimp only [Option.map_none]
          rw [show ({ heap.unnumbered with pages := pages.map Page.unnumbered } : PageHeapTable)
            = ({ heap with pages := pages } : PageHeapTable).unnumbered from rfl]
          rcases PageHeapTable.allocatePage_unnumbered hroom' with
            ⟨st, halloc, halloc'⟩ | ⟨page, page', halloc, halloc', hpages⟩
          · rw [halloc, halloc']
            refine ⟨rfl, ?_⟩
            simp [PageHeapTable.unnumbered]
          · rw [halloc, halloc']
            dsimp only
            obtain ⟨hreply, hafter⟩ := Page.insert_alike hpages record
            cases hins : page.insert record with
            | mk reply after =>
                cases hins' : page'.insert record with
                | mk reply' after' =>
                    rw [hins, hins'] at hreply hafter
                    dsimp only at hreply hafter
                    subst hreply
                    cases reply with
                    | error st =>
                        refine ⟨rfl, ?_⟩
                        simp [PageHeapTable.unnumbered]
                    | ok slot =>
                        refine ⟨rfl, ?_⟩
                        simp [PageHeapTable.unnumbered, hafter]

/-- Two heaps that differ in their numbers alone take a record alike. -/
theorem PageHeapTable.insert_alike {heap heap' : PageHeapTable}
    (h : heap.unnumbered = heap'.unnumbered)
    (hroom : heap.rootPageId + heap.pages.length < kInvalidPageId)
    (hroom' : heap'.rootPageId + heap'.pages.length < kInvalidPageId) (record : Bytes) :
    RecordId.unnumbered <$> (heap.insert record).1
        = RecordId.unnumbered <$> (heap'.insert record).1
      ∧ (heap.insert record).2.unnumbered = (heap'.insert record).2.unnumbered := by
  obtain ⟨hreply, hafter⟩ := PageHeapTable.insert_unnumbered hroom record
  obtain ⟨hreply', hafter'⟩ := PageHeapTable.insert_unnumbered hroom' record
  rw [hreply, hafter, hreply', hafter', h]
  exact ⟨rfl, rfl⟩

/-- The one row of an INSERT goes into both heaps alike. -/
theorem insertRows_alike {heap heap' : PageHeapTable}
    (h : heap.unnumbered = heap'.unnumbered)
    (hroom : heap.rootPageId + heap.pages.length < kInvalidPageId)
    (hroom' : heap'.rootPageId + heap'.pages.length < kInvalidPageId) (schema : TableSchema)
    (row : List Value) :
    (insertRows schema [row] heap).1 = (insertRows schema [row] heap').1
      ∧ (insertRows schema [row] heap).2.unnumbered
        = (insertRows schema [row] heap').2.unnumbered := by
  rw [insertRows, insertRows]
  split_ifs
  · exact ⟨rfl, h⟩
  · cases encode schema row with
    | error st => exact ⟨rfl, h⟩
    | ok tuple =>
        dsimp only
        obtain ⟨hreply, hafter⟩ := PageHeapTable.insert_alike h hroom hroom' tuple
        cases hins : heap.insert tuple with
        | mk reply after =>
            cases hins' : heap'.insert tuple with
            | mk reply' after' =>
                rw [hins, hins'] at hreply hafter
                rcases map_eq_map_iff.mp hreply with ⟨st, hst, hst'⟩ | ⟨id, id', hid, hid', -⟩
                · dsimp only at hst hst'
                  rw [hst, hst']
                  exact ⟨rfl, hafter⟩
                · dsimp only at hid hid'
                  rw [hid, hid']
                  exact ⟨rfl, hafter⟩

/-! ## Rows -/

/-- The rows of a heap do not depend on its numbers. -/
theorem heapRows_unnumbered (schema : TableSchema) (heap : PageHeapTable) :
    heapRows schema heap.unnumbered = heapRows schema heap := by
  have hpage : ∀ page : Page,
      (page.unnumbered.recordsFrom 0).filterMap (fun record => okValue (decode schema record.bytes))
        = (page.recordsFrom 0).filterMap fun record => okValue (decode schema record.bytes) := by
    intro page
    unfold Page.recordsFrom
    rw [List.filterMap_filterMap, List.filterMap_filterMap]
    apply List.filterMap_congr
    intro s _
    show ((page.lookup s).map _).bind _ = ((page.lookup s).map _).bind _
    cases page.lookup s <;> rfl
  unfold heapRows PageHeapTable.records pageRecords
  rw [List.filterMap_flatMap, List.filterMap_flatMap,
    show heap.unnumbered.pages = heap.pages.map Page.unnumbered from rfl, List.flatMap_map]
  simp only [hpage]

end MattSql
