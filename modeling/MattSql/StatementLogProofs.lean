import MattSql.EngineSafetyProofs

/-! # The statement log

    `DefaultSqlEngine::Execute` with transactions of the caller's.  A read-only
    transaction, or one that is not active, changes nothing; what is left to
    change the database are the CREATE TABLEs and INSERTs that are answered with
    a result without columns.

    So these texts are a log: replayed on a fresh engine they are all answered
    like that again, and lead to the same database (`statement_log_replays`).  A
    replica that replays the log answers every SELECT as the engine does. -/

namespace MattSql

open Fallible

/-! ## Requests -/

/-- `DefaultSqlEngine::Execute` on a text with the caller's transaction. -/
def serve (db : Database) (request : Transaction × Bytes) : Result QueryResult × Database :=
  executeIn request.1 db request.2

/-- A text that is answered with a result without columns goes into the log. -/
def logEntry (entry : (Transaction × Bytes) × Result QueryResult) : Option Bytes :=
  if entry.2 = .ok {} then some entry.1.2 else none

/-- The log of a run of requests, from its replies. -/
def statementLog (requests : List (Transaction × Bytes)) : List Bytes :=
  (Run.trace serve {} requests).filterMap logEntry

/-- `StatementKind::Select`. -/
def Statement.reads : Statement → Bool
  | .select _ _ _ => true
  | _ => false

def BoundStatement.reads : BoundStatement → Bool
  | .select _ _ _ _ => true
  | _ => false

/-- The transaction lets the text run: it is active, and read-write unless the
    text is a SELECT. -/
def Permits (transaction : Transaction) (sql : Bytes) : Prop :=
  transaction.state = .active ∧ (transaction.mode = .readWrite
    ∨ ∃ statement, parseSql sql = .ok statement ∧ statement.reads = true)

/-- A reply in place of the one in a read-write transaction: an error about the
    transaction, or the error from before the transaction is looked at. -/
def Refused (reply granted : Result QueryResult) : Prop :=
  ∃ st, reply = .error st ∧ (st.code = .transactionConflict ∨ granted = .error st)

variable {db : Database}

/-! ## Transactions that may not write -/

theorem executePhysical_inactive {transaction : Transaction} (h : transaction.state ≠ .active)
    (plan : PhysicalPlan) (db : Database) :
    executePhysical plan transaction db
      = (errorResult .transactionConflict (ascii "transaction is not active"), db) := by
  rw [executePhysical, requireActive]
  rw [if_pos h]
  rfl

theorem executePhysical_active (mode : TransactionMode) (plan : PhysicalPlan) (db : Database) :
    executePhysical plan ⟨mode, .active⟩ db
      = (toQueryResult <$> (executePlan ⟨mode, .active⟩ plan db).1,
        (executePlan ⟨mode, .active⟩ plan db).2) := rfl

/-- In a read-only transaction a SELECT runs as in any other, and a statement
    that writes is refused before its input runs. -/
theorem BoundIn.run_readOnly (hdb : db.Consistent) {bound : BoundStatement} (h : BoundIn db bound) :
    runBound ⟨.readOnly, .active⟩ bound db
      = if bound.reads = true then runBound {} bound db
        else (errorResult .transactionConflict
          (ascii "statement requires a read-write transaction"), db) := by
  rw [h.runBound_eq hdb, h.runBound_eq hdb]
  cases h with
  | @select projections projectionNames table predicate hb hfrom =>
      have hplan : ∀ transaction : Transaction, executePlan transaction
            (plainPlan (.select projections projectionNames table predicate)) db
          = onInput (executeProjection projections projectionNames)
              (inputResult table db.storage predicate, db) := by
        intro transaction
        rw [plainPlan, executePlan_projection transaction db hb.nonempty hb.names_length,
          executePlan_input]
      refine Eq.trans ?_ (if_pos rfl).symm
      rw [executePhysical_active, executePhysical_active, hplan, hplan]
  | insert => rfl
  | createTable => rfl

/-- The binder makes a SELECT of a SELECT and of nothing else. -/
theorem bind_reads {getTable : Bytes → Result TableInfo} {statement : Statement}
    {bound : BoundStatement} (h : bind getTable statement = .ok bound) :
    bound.reads = statement.reads := by
  cases statement with
  | select =>
      obtain ⟨table, -, h⟩ := bind_ok_iff.mp h
      obtain ⟨bounds, -, h⟩ := bind_ok_iff.mp h
      obtain ⟨predicate, -, h⟩ := bind_ok_iff.mp h
      cases h
      rfl
  | insert =>
      obtain ⟨table, values, rfl, -⟩ := bindInsert_ok h
      rfl
  | createTable =>
      obtain ⟨-, -, -, columns, -, rfl⟩ := bindCreateTable_bound h
      rfl

theorem refused_conflict {message : Bytes} {granted : Result QueryResult} :
    Refused (errorResult .transactionConflict message) granted := ⟨_, rfl, .inl rfl⟩

/-- A transaction that permits a text leaves its run alone; in any other the
    text is refused and the database stays as it is. -/
theorem Database.Consistent.executeIn_eq (hdb : db.Consistent) (transaction : Transaction)
    (sql : Bytes) :
    (Permits transaction sql → executeIn transaction db sql = MattSql.execute db sql)
      ∧ (¬Permits transaction sql → (executeIn transaction db sql).2 = db
        ∧ Refused (executeIn transaction db sql).1 (MattSql.execute db sql).1) := by
  rw [MattSql.execute, executeIn, executeIn]
  cases hparse : parseSql sql with
  | error st => exact ⟨fun _ => rfl, fun _ => ⟨rfl, st, rfl, .inr rfl⟩⟩
  | ok statement =>
      dsimp only
      cases hbind : bind db.catalog.getTable statement with
      | error st => exact ⟨fun _ => rfl, fun _ => ⟨rfl, st, rfl, .inr rfl⟩⟩
      | ok bound =>
          dsimp only
          have hbound := hdb.boundIn hparse hbind
          obtain ⟨mode, state⟩ := transaction
          by_cases hstate : state = .active
          · subst hstate
            cases mode with
            | readWrite => exact ⟨fun _ => rfl, fun h => absurd ⟨rfl, .inl rfl⟩ h⟩
            | readOnly =>
                rw [hbound.run_readOnly hdb, bind_reads hbind]
                by_cases hreads : statement.reads = true
                · rw [if_pos hreads]
                  exact ⟨fun _ => rfl,
                    fun h => absurd ⟨rfl, .inr ⟨statement, hparse, hreads⟩⟩ h⟩
                · rw [if_neg hreads]
                  refine ⟨?_, fun _ => ⟨rfl, refused_conflict⟩⟩
                  rintro ⟨-, hmode | ⟨other, hother, h⟩⟩
                  · cases hmode
                  · cases hparse.symm.trans hother
                    exact absurd h hreads
          · rw [hbound.runBound_eq hdb, executePhysical_inactive hstate]
            exact ⟨fun h => absurd h.1 hstate, fun _ => ⟨rfl, refused_conflict⟩⟩

/-! ## What changes the database -/

/-- With root ids left, only a text that is answered without columns changes
    the database; it takes at most one root id. -/
theorem BoundIn.acknowledged (hdb : db.Consistent)
    (hroots : db.storage.nextRootPageId < kInvalidPageId) {bound : BoundStatement}
    (h : BoundIn db bound) :
    ((runBound {} bound db).1 = .ok {} ∨ (runBound {} bound db).2 = db)
      ∧ (runBound {} bound db).2.storage.nextRootPageId ≤ db.storage.nextRootPageId + 1 := by
  have hsame : db.storage.nextRootPageId ≤ db.storage.nextRootPageId + 1 := Nat.le_succ _
  cases h with
  | select hb hfrom =>
      rw [hb.run hdb hfrom]
      exact ⟨.inr rfl, hsame⟩
  | @insert key table values hfound hb =>
      obtain ⟨data, hs⟩ := hdb.tables key table hfound
      have hrun := hs.runInsert hdb hfound hb
      generalize runBound {} (.insert table values) db = reply at hrun ⊢
      cases hrun with
      | failed => exact ⟨.inr rfl, hsame⟩
      | refused => exact ⟨.inr rfl, hsame⟩
      | inserted =>
          refine ⟨.inl rfl, ?_⟩
          rw [InMemoryTableStorageManager.storeHeap]
          rw [hs.heap_found]
          exact hsame
  | @createTable request hname hne hnew hvalid =>
      have hrun := hdb.runCreateTable hname hne hnew hvalid
      generalize runBound {} (.createTable request) db = reply at hrun ⊢
      cases hrun with
      | exhausted hexhausted _ _ => exact absurd hexhausted (Nat.ne_of_lt hroots)
      | created => exact ⟨.inl rfl, Nat.mod_le _ _⟩

theorem Database.Consistent.acknowledged (hdb : db.Consistent)
    (hroots : db.storage.nextRootPageId < kInvalidPageId) (sql : Bytes) :
    ((MattSql.execute db sql).1 = .ok {} ∨ (MattSql.execute db sql).2 = db)
      ∧ (MattSql.execute db sql).2.storage.nextRootPageId ≤ db.storage.nextRootPageId + 1 := by
  rw [MattSql.execute, executeIn]
  cases hparse : parseSql sql with
  | error st => exact ⟨.inr rfl, Nat.le_succ _⟩
  | ok statement =>
      dsimp only
      cases hbind : bind db.catalog.getTable statement with
      | error st => exact ⟨.inr rfl, Nat.le_succ _⟩
      | ok bound => exact (hdb.boundIn hparse hbind).acknowledged hdb hroots

/-! ## Replay -/

/-- A database after so many requests. -/
structure Database.After (n : Nat) (db : Database) : Prop where
  consistent : db.Consistent
  roots_le : db.storage.nextRootPageId ≤ n + 1

variable {n : Nat}

theorem Database.After.roots_lt (h : db.After n) (hn : n + 1 < kInvalidPageId) :
    db.storage.nextRootPageId < kInvalidPageId := Nat.lt_of_le_of_lt h.roots_le hn

/-- One request is one more. -/
theorem Database.After.serve (h : db.After n) (hn : n + 1 < kInvalidPageId)
    (request : Transaction × Bytes) : (MattSql.serve db request).2.After (n + 1) := by
  rw [MattSql.serve]
  obtain ⟨hsame, hrefused⟩ := h.consistent.executeIn_eq request.1 request.2
  by_cases hpermits : Permits request.1 request.2
  · rw [hsame hpermits]
    exact ⟨h.consistent.execute _, (h.consistent.acknowledged (h.roots_lt hn) _).2.trans
      (Nat.succ_le_succ h.roots_le)⟩
  · rw [(hrefused hpermits).1]
    exact ⟨h.consistent, h.roots_le.trans (Nat.le_succ _)⟩

/-- What the request leaves in the log has its effect. -/
theorem Database.After.logged (h : db.After n) (hn : n + 1 < kInvalidPageId)
    (request : Transaction × Bytes) :
    (logEntry (request, (MattSql.serve db request).1)).elim ((MattSql.serve db request).2 = db)
      fun sql => (execute db sql).1 = .ok {}
        ∧ (MattSql.serve db request).2 = (execute db sql).2 := by
  obtain ⟨transaction, sql⟩ := request
  rw [logEntry, MattSql.serve]
  dsimp only
  obtain ⟨hsame, hrefused⟩ := h.consistent.executeIn_eq transaction sql
  by_cases hpermits : Permits transaction sql
  · rw [hsame hpermits]
    by_cases hok : (execute db sql).1 = .ok {}
    · rw [if_pos hok]
      exact ⟨hok, rfl⟩
    · rw [if_neg hok]
      exact (h.consistent.acknowledged (h.roots_lt hn) sql).1.resolve_left hok
  · obtain ⟨hkept, st, hreply, -⟩ := hrefused hpermits
    rw [hreply, if_neg fun h => by cases h]
    exact hkept

theorem serve_eq_replay (requests : List (Transaction × Bytes))
    (hlength : requests.length + 1 < kInvalidPageId) :
    Run.final serve {} requests = engineAfter (statementLog requests)
      ∧ ∀ reply ∈ Run.trace execute {} (statementLog requests), reply.2 = .ok {} :=
  @Run.final_eq_replay _ _ _ _ _ serve execute logEntry (· = .ok {}) Database.After
    (kInvalidPageId - 2)
    (fun n db request h hn => h.serve (by omega) request)
    (fun n db request h hn => h.logged (by omega) request) requests 0 {} (by omega)
    ⟨Database.consistent_empty, Nat.le_refl _⟩

/-- **THE LOG REPLAYS.**  Over every run of requests, in any transactions, the
    database is the one of a fresh engine after the texts that were answered
    without columns, all of which are answered like that again.  And a replica
    with the log so far tells the reply to the next request: it is the reply of
    the replica when the transaction permits the text, and an error when it does
    not. -/
theorem statement_log_replays (requests : List (Transaction × Bytes))
    (hlength : requests.length + 1 < kInvalidPageId) :
    Run.final serve {} requests = engineAfter (statementLog requests)
      ∧ (∀ reply ∈ Run.trace execute {} (statementLog requests), reply.2 = .ok {})
      ∧ ∀ n transaction sql, requests[n]? = some (transaction, sql) →
        let replica := engineAfter (statementLog (requests.take n))
        let reply := (serve (Run.final serve {} (requests.take n)) (transaction, sql)).1
        (Permits transaction sql → reply = (execute replica sql).1)
          ∧ (¬Permits transaction sql → Refused reply (execute replica sql).1) := by
  obtain ⟨hfinal, hreplies⟩ := serve_eq_replay requests hlength
  refine ⟨hfinal, hreplies, fun n transaction sql hnext => ?_⟩
  intro replica reply
  have hreplica : Run.final serve {} (requests.take n) = replica :=
    (serve_eq_replay (requests.take n) (by
      rw [List.length_take]
      omega)).1
  have hreply : reply = (executeIn transaction replica sql).1 := by rw [← hreplica]; rfl
  obtain ⟨hsame, hrefused⟩ := (engineAfter_consistent _).executeIn_eq transaction sql
  rw [hreply]
  exact ⟨fun h => congrArg Prod.fst (hsame h), fun h => (hrefused h).2⟩

/-- An INSERT in a read-only transaction between two in read-write ones. -/
theorem statement_log_replays_read_only :
    let readOnly : Transaction := ⟨.readOnly, .active⟩
    let requests := [({}, ascii "CREATE TABLE t (a INT)"), (readOnly, ascii "INSERT INTO t VALUES (1)"),
      (readOnly, ascii "SELECT a FROM t"), ({}, ascii "INSERT INTO t VALUES (2)")]
    statementLog requests = [ascii "CREATE TABLE t (a INT)", ascii "INSERT INTO t VALUES (2)"]
      ∧ Run.final serve {} requests = engineAfter (statementLog requests) := by
  intro readOnly requests
  exact ⟨by decide +kernel, (statement_log_replays requests (by decide)).1⟩

end MattSql
