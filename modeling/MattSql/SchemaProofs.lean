import Mathlib.Data.List.Forall2
import MattSql.ValueProofs

/-! # Schemas and catalog metadata

    `catalog/schema.hpp` and `catalog/table_info.hpp`.  Ids are natural
    numbers; where the source's 64-bit counters could wrap, the functions that
    advance them say so. -/

namespace MattSql

/-- `kInvalidPageId`, the largest 64-bit number. -/
def kInvalidPageId : Nat := 2 ^ 64 - 1

/-- `kDefaultPageSize`. -/
def kDefaultPageSize : Nat := 4096

/-- `std::numeric_limits<ColumnId>::max()`. -/
def kMaxColumnId : Nat := 4294967295

structure ColumnSchema where
  name : Bytes
  type : SqlType := .null
  nullable : Bool := true
  id : Nat := 0
  deriving DecidableEq

structure TableSchema where
  columns : List ColumnSchema := []
  deriving DecidableEq

structure IndexSchema where
  name : Bytes
  keyColumns : List Nat
  unique : Bool := false
  deriving DecidableEq

structure CreateTableRequest where
  name : Bytes
  schema : TableSchema
  deriving DecidableEq

structure IndexInfo where
  id : Nat := 0
  name : Bytes
  tableId : Nat := 0
  schema : IndexSchema
  rootPageId : Nat := kInvalidPageId
  deriving DecidableEq

structure TableInfo where
  id : Nat := 0
  name : Bytes := []
  schema : TableSchema := {}
  heapRootPageId : Nat := kInvalidPageId
  indexes : List IndexInfo := []
  deriving DecidableEq

/-- The schemas the catalog stores: some columns, each with a name and a
    storable type, its own position as id, and no name twice up to case. -/
structure TableSchema.Valid (schema : TableSchema) : Prop where
  nonempty : schema.columns ≠ []
  named : ∀ c ∈ schema.columns, c.name ≠ []
  storable : ∀ c ∈ schema.columns, c.type ≠ .null
  ordinal : ∀ (i : Nat) (c : ColumnSchema), schema.columns[i]? = some c → c.id = i
  distinct : (schema.columns.map fun c => foldIdentifierKey c.name).Nodup

/-- A row fits a schema: one value per column, each NULL or of the column's
    type. -/
def RowFits (schema : TableSchema) (row : List Value) : Prop :=
  List.Forall₂ (fun c v => v = .null ∨ valueTypeOf v = c.type)
    schema.columns row

/-- A row that fits and holds no NULL. -/
def RowFull (schema : TableSchema) (row : List Value) : Prop :=
  List.Forall₂ (fun c v => v ≠ .null ∧ valueTypeOf v = c.type)
    schema.columns row

theorem RowFull.fits {schema : TableSchema} {row : List Value}
    (h : RowFull schema row) : RowFits schema row :=
  List.Forall₂.imp (fun _ _ hcv => Or.inr hcv.2) h

theorem RowFull.null_notMem {schema : TableSchema} {row : List Value}
    (h : RowFull schema row) : Value.null ∉ row := by
  rw [RowFull] at h
  generalize schema.columns = columns at h
  induction h with
  | nil => exact List.not_mem_nil
  | @cons c v cs vs hcv _ ih =>
      intro hnull
      rcases List.mem_cons.mp hnull with rfl | hnull
      · exact hcv.1 rfl
      · exact ih hnull

end MattSql
