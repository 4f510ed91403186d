import SnapshotSql.ColumnType
import SnapshotSql.Row
import SnapshotSql.Statement

/-! # Table schemas

A schema lists the columns of a table or view with its keys and references, and can be written as the
CREATE TABLE statement that describes it. A view has no key and no references. Rows are cast to the
types of their columns one by one.
-/
namespace SnapshotSql

structure Column where
  name : Text
  type : ColumnType
  unique : Bool
  notNull : Bool
  autoIncrement : Bool
  deriving DecidableEq

/-- Where the primary key of a table comes from: a constraint of the table, flagged columns, a column
that happens to be called id, or a column id that was added. A view has none. -/
inductive KeySource where
  | declared
  | column
  | existingId
  | synthesized
  | none
  deriving DecidableEq

structure TableSchema where
  name : Text
  columns : List Column
  primaryKey : List Text
  uniqueKeys : List (List Text)
  foreignKeys : List ForeignKey
  keySource : KeySource
  isView : Bool
  deriving DecidableEq

def ReferentialAction.sql : ReferentialAction → Text
  | .restrict => "RESTRICT"
  | .cascade => "CASCADE"
  | .setNull => "SET NULL"

namespace ForeignKey

def describe (foreignKey : ForeignKey) (table : Text) : Text :=
  let given := foreignKey.name.getD ""
  let label :=
    if given = "" then "fk_" ++ table ++ "_" ++ List.intercalate "_" foreignKey.columns else given
  label ++ " (" ++ table ++ "(" ++ List.intercalate ", " foreignKey.columns ++ ") -> " ++
    foreignKey.refTable ++ "(" ++ List.intercalate ", " foreignKey.refColumns ++ "))"

/-- What is written for the deletion or update of referenced rows. Restricting is what happens anyway. -/
def actionSql (event : Text) (action : ReferentialAction) : Text :=
  if action = .restrict then [] else " ON " ++ event ++ " " ++ action.sql

def sql (foreignKey : ForeignKey) : Text :=
  "FOREIGN KEY (" ++ List.intercalate ", " foreignKey.columns ++ ") REFERENCES " ++
    foreignKey.refTable ++ "(" ++ List.intercalate ", " foreignKey.refColumns ++ ")" ++
    actionSql "DELETE" foreignKey.onDelete ++ actionSql "UPDATE" foreignKey.onUpdate

end ForeignKey

def Column.sql (column : Column) : Text :=
  column.name ++ " " ++ column.type.sql ++ (if column.notNull then " NOT NULL" else "")

namespace TableSchema

def columnNames (schema : TableSchema) : List Text :=
  schema.columns.map (·.name)

def column? (schema : TableSchema) (name : Text) : Option Column :=
  schema.columns.find? (·.name = name)

def requireColumn (schema : TableSchema) (name : Text) : Except SqlError Unit :=
  if schema.columnNames.contains name then .ok ()
  else .error (.invalidSchema (.unknownColumn name schema.name))

def sql (schema : TableSchema) : Text :=
  let keys :=
    if schema.primaryKey.isEmpty then [] else [listed "PRIMARY KEY" schema.primaryKey]
  let parts := schema.columns.map Column.sql ++ keys ++ schema.uniqueKeys.map (listed "UNIQUE") ++
    schema.foreignKeys.map ForeignKey.sql
  let lines : List Text := parts.map fun part => "  " ++ part
  "CREATE TABLE " ++ schema.name ++ " (\n" ++ List.intercalate ",\n" lines ++ "\n);"
where
  /-- A word with a list of columns. -/
  listed (word : Text) (columns : List Text) : Text :=
    word ++ " (" ++ List.intercalate ", " columns ++ ")"

end TableSchema

def castColumns (row : Row) (typed : Row) : List Column → Except Failure Row
  | [] => .ok typed
  | column :: columns =>
      match row.get? column.name with
      | none => castColumns row typed columns
      | some value => do
          let value ← value.castTo column.type
          castColumns row (typed.insert column.name value) columns

/-- Casts the values of a row to the types of the columns. Columns that the row lacks stay missing,
and values of unknown columns are dropped. -/
def castRow (columns : List Column) (row : Row) : Except Failure Row :=
  castColumns row .empty columns

end SnapshotSql
