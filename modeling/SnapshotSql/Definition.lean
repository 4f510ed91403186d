import SnapshotSql.Database

/-! # From CREATE TABLE and CREATE VIEW to schemas

A definition is checked column by column and key by key; the first fault found is reported. A table
always gets a primary key: the declared one, else the flagged columns, else a column called id, else
a column id that is added in front. Foreign keys may point at the table itself and at the tables
known so far.
-/
namespace SnapshotSql

def invalid {α : Type} (error : SchemaError) : Except SqlError α :=
  .error (.invalidSchema error)

def lengthOf (type : TypeName) (params : List Number) : Except SqlError Nat :=
  match params with
  | [.int length] =>
      if length < 1 then .error (.malformed (.lengthRequired type.sql)) else .ok length.toNat
  | _ => .error (.malformed (.lengthRequired type.sql))

def columnType (column : ColumnSpec) : Except SqlError ColumnType := do
  let plain (type : ColumnType) : Except SqlError ColumnType :=
    if column.params.isEmpty then .ok type
    else .error (.malformed (.needlessParameters type.typeName.sql column.name))
  match TypeName.ofSql? column.typeName with
  | none => .error (.malformed (.unknownType column.typeName))
  | some .char => return .char (← lengthOf .char column.params)
  | some .varchar => return .varchar (← lengthOf .varchar column.params)
  | some .decimal =>
      match column.params with
      | [.int precision, .int scale] => return .decimal precision.toNat scale.toNat
      | _ => .error (.malformed .precisionRequired)
  | some .int => plain .int
  | some .real => plain .real
  | some .text => plain .text
  | some .boolean => plain .boolean

def buildColumn (column : ColumnSpec) : Except SqlError Column := do
  let type ← columnType column
  if column.autoIncrement && type ≠ .int then invalid (.autoIncrementType column.name)
  else return ⟨column.name, type, column.unique, column.notNull, column.autoIncrement⟩

/-- Every name is a column, and none is listed twice. -/
def checkColumns (table part : Text) (available names : List Text) : Except SqlError Unit :=
  match names.find? (!available.contains ·) with
  | some name => invalid (.unknownColumnIn name part table)
  | none => if names.Nodup then .ok () else invalid (.repeatedColumnIn part table)

def repeatedNames (names : List Text) : List Text :=
  Database.sortNames (names.filter (1 < names.count ·)).eraseDups

def isIdName : Text → Bool
  | [i, d] => (i = 'i' || i = 'I') && (d = 'd' || d = 'D')
  | _ => false

/-- The primary key of a table, where it comes from, and the columns as the choice leaves them. -/
def choosePrimaryKey (definition : CreateTable) (columns : List Column) :
    Except SqlError (List Text × KeySource × List Column) := do
  match definition.primaryKey with
  | some key =>
      checkColumns definition.table "PRIMARY KEY" (columns.map (·.name)) key
      return (key, .declared, columns)
  | none =>
      let flagged := (definition.columns.filter (·.primary)).map (·.name)
      if !flagged.isEmpty then return (flagged, .column, columns)
      else
        match columns.find? (isIdName ·.name) with
        | some column =>
            let counting := { column with autoIncrement := true }
            return ([column.name], .existingId,
              if column.type = .int then columns.replace column counting else columns)
        | none => return (["id"], .synthesized, ⟨"id", .int, false, false, true⟩ :: columns)

/-- Adds a UNIQUE constraint of the table, unless the same key is there already. -/
def addUniqueKey (table : Text) (names : List Text) (keys : List (List Text))
    (key : List Text) : Except SqlError (List (List Text)) := do
  checkColumns table "UNIQUE" names key
  return if keys.contains key then keys else keys ++ [key]

/-- A foreign key points at existing columns, as many as its own, and is not to set columns to null
that cannot be. -/
def checkForeignKey (known : OrderedMap TableSchema) (schema : TableSchema)
    (foreignKey : ForeignKey) : Except SqlError Unit := do
  checkColumns schema.name "FOREIGN KEY" schema.columnNames foreignKey.columns
  if foreignKey.columns.length ≠ foreignKey.refColumns.length then
    invalid (.referenceCount schema.name foreignKey.columns)
  let target ←
    if foreignKey.refTable = schema.name then pure schema
    else match known.get? foreignKey.refTable with
      | some target => pure target
      | none => invalid (.unknownReferencedTable foreignKey.refTable)
  match foreignKey.refColumns.find? (!target.columnNames.contains ·) with
  | some column => invalid (.unknownReferencedColumn column foreignKey.refTable)
  | none =>
      let rigid := foreignKey.columns.filter fun name =>
        schema.primaryKey.contains name || (schema.column? name).any (·.notNull)
      let nulling := foreignKey.onDelete = .setNull || foreignKey.onUpdate = .setNull
      if !rigid.isEmpty && nulling then invalid (.impossibleSetNull schema.name rigid)
      else return ()

def buildSchema (known : OrderedMap TableSchema) (definition : CreateTable) :
    Except SqlError TableSchema := do
  let columns ← definition.columns.mapM buildColumn
  let repeated := repeatedNames (columns.map (·.name))
  if !repeated.isEmpty then invalid (.repeatedColumns repeated definition.table)
  let (primaryKey, keySource, columns) ← choosePrimaryKey definition columns
  let names := columns.map (·.name)
  let flagged := (columns.filter (·.unique)).map ([·.name])
  let uniqueKeys ← definition.uniqueKeys.foldlM (addUniqueKey definition.table names) flagged
  let schema : TableSchema :=
    ⟨definition.table, columns, primaryKey, uniqueKeys, definition.foreignKeys, keySource, false⟩
  definition.foreignKeys.forM (checkForeignKey known schema)
  return schema

/-- The type of a view's column from the values it holds that are not null. -/
def inferType (values : List Scalar) : TypeName :=
  let isBool : Scalar → Bool | .bool _ => true | _ => false
  let isWhole : Scalar → Bool | .int _ => true | .float x => x.whole?.isSome | _ => false
  if values.isEmpty then .text
  else if values.all isBool then .boolean
  else if values.all Scalar.isNumber then if values.all isWhole then .int else .real
  else .text

/-- The column type of an inferred type; text serves for the types that have parameters. -/
def TypeName.plain : TypeName → ColumnType
  | .int => .int
  | .real => .real
  | .boolean => .boolean
  | _ => .text

def viewSchema (view : Text) (result : QueryResult) : TableSchema :=
  let column (name : Text) : Column :=
    let present := (result.rows.map (·.value name)).filter (!·.isNull)
    ⟨name, (inferType present).plain, false, false, false⟩
  ⟨view, result.columns.map column, [], [], [], .none, true⟩

end SnapshotSql
