import SnapshotSql.Json
import SnapshotSql.Session

/-! # JSON reports

Rows, results, schemas and sessions as JSON objects.
-/
namespace SnapshotSql

def rowReport (row : Row) : Json :=
  .object (row.entries.map fun (name, value) => (name, .scalar value))

namespace QueryResult

def members (result : QueryResult) : List (Text × Json) :=
  [("columns", .texts result.columns), ("rows", .array (result.rows.map rowReport))]

def report (result : QueryResult) : Json :=
  .object result.members

end QueryResult

def countReport : Option Nat → Json
  | some count => .int count
  | none => .null

namespace ColumnType

def length? : ColumnType → Option Nat
  | .char length => some length
  | .varchar length => some length
  | _ => none

def precision? : ColumnType → Option Nat
  | .decimal precision _ => some precision
  | _ => none

def scale? : ColumnType → Option Nat
  | .decimal _ scale => some scale
  | _ => none

end ColumnType

def KeySource.text : KeySource → Text
  | .declared => "declared"
  | .column => "column"
  | .existingId => "existing_id"
  | .synthesized => "synthesized"
  | .none => "none"

namespace TableSchema

def columnReport (schema : TableSchema) (column : Column) : Json :=
  .object [
    ("name", .text column.name),
    ("type", .text column.type.typeName.sql),
    ("length", countReport column.type.length?),
    ("precision", countReport column.type.precision?),
    ("scale", countReport column.type.scale?),
    ("primary", .bool (schema.primaryKey.contains column.name)),
    ("not_null", .bool column.notNull),
    ("auto_increment", .bool column.autoIncrement)]

def foreignKeyReport (foreignKey : ForeignKey) : Json :=
  .object [
    ("columns", .texts foreignKey.columns),
    ("ref_table", .text foreignKey.refTable),
    ("ref_columns", .texts foreignKey.refColumns),
    ("on_delete", .text foreignKey.onDelete.sql),
    ("on_update", .text foreignKey.onUpdate.sql)]

def members (schema : TableSchema) : List (Text × Json) := [
  ("name", .text schema.name),
  ("columns", .array (schema.columns.map schema.columnReport)),
  ("primary_key", if schema.isView then .null else .texts schema.primaryKey),
  ("pk_source", .text schema.keySource.text),
  ("unique_keys", .array (schema.uniqueKeys.map .texts)),
  ("foreign_keys", .array (schema.foreignKeys.map foreignKeyReport)),
  ("is_view", .bool schema.isView),
  ("sql", if schema.isView then .null else .text schema.sql)]

def report (schema : TableSchema) : Json :=
  .object schema.members

end TableSchema

def Session.summary (session : Session) : Json :=
  .object [
    ("name", .scalar session.name),
    ("active", .text session.database.active),
    ("tables", .texts session.database.tableNames),
    ("statements", .int session.statements)]

end SnapshotSql
