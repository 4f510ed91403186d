import SnapshotSql.Schema
import SnapshotSql.Sorting

/-! # Database snapshots

A snapshot is never modified: a statement builds the next one. It maps table names to schemas and to
rows, in the order of creation, and remembers the table that was created last.
-/
namespace SnapshotSql

structure Database where
  active : Text
  schemas : OrderedMap TableSchema
  rows : OrderedMap (List Row)
  deriving DecidableEq

structure QueryResult where
  columns : List Text
  rows : List Row
  deriving DecidableEq

namespace QueryResult

def message (text : Text) : QueryResult :=
  ⟨["message"], [.ofList [("message", .text text)]]⟩

def affected (text : Text) (count : Nat) : QueryResult :=
  ⟨["message", "affected"], [.ofList [("message", .text text), ("affected", .int count)]]⟩

def error (text : Text) : QueryResult :=
  ⟨["error"], [.ofList [("error", .text text)]]⟩

def isError (result : QueryResult) : Bool :=
  result.columns = ([.ofString "error"] : List Text)

end QueryResult

namespace Database

def empty : Database :=
  ⟨"", .empty, .empty⟩

def tableNames (database : Database) : List Text :=
  database.schemas.names

def tableRows (database : Database) (table : Text) : List Row :=
  (database.rows.get? table).getD []

def requireTable (database : Database) (table : Text) : Except SqlError TableSchema :=
  match database.schemas.get? table with
  | some schema => .ok schema
  | none => .error (.tableNotFound table)

/-- The foreign keys that point at a table, each with the table that declares it. -/
def referencing (database : Database) (table : Text) : List (Text × ForeignKey) :=
  database.schemas.entries.flatMap fun (child, schema) =>
    (schema.foreignKeys.filter (·.refTable = table)).map (child, ·)

def sortNames (names : List Text) : List Text :=
  Sorting.sort Text.lt names

/-- Every table has rows and every list of rows has a schema. -/
def checkPaired (database : Database) : Except SqlError Unit :=
  let withoutRows := database.schemas.names.filter (!database.rows.contains ·)
  let withoutSchema := database.rows.names.filter (!database.schemas.contains ·)
  if withoutRows.isEmpty && withoutSchema.isEmpty then .ok ()
  else .error (.invalidSchema (.unpairedTables (sortNames withoutRows) (sortNames withoutSchema)))

end Database

end SnapshotSql
