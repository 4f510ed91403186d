import SnapshotSql.Definition
import SnapshotSql.Grammar.Statement
import SnapshotSql.Integrity
import SnapshotSql.Selection

/-! # Executing statements

A statement is run against a snapshot and answers a result and, if it changed anything, the next
snapshot. Writes count as changes even if no row was affected. A text holds one statement, or several
CREATE TABLE statements, which take effect together or not at all.
-/
namespace SnapshotSql

/-- What a statement answers; `next` is the snapshot that it publishes, if any. -/
structure Outcome where
  next : Option Database
  result : QueryResult

namespace Outcome

def unchanged (result : QueryResult) : Outcome :=
  ⟨none, result⟩

def published (database : Database) (result : QueryResult) : Outcome :=
  ⟨some database, result⟩

def snapshot (outcome : Outcome) (before : Database) : Database :=
  outcome.next.getD before

def checked (outcome : Outcome) : Except Failure Outcome := do
  if let some next := outcome.next then orFail next.checkPaired
  return outcome

end Outcome

namespace Database

/-! ## Definitions -/

/-- The schemas that a batch adds to the known ones, in order. A table that the database has already
may be skipped; one that the batch has created may not. -/
def newSchemas (database : Database) :
    OrderedMap TableSchema → List CreateTable → Except SqlError (List TableSchema)
  | _, [] => return []
  | known, definition :: definitions => do
      if known.contains definition.table then
        if definition.ifNotExists && database.schemas.contains definition.table then
          newSchemas database known definitions
        else invalid (.tableExists definition.table)
      else
        let schema ← buildSchema known definition
        return schema :: (← newSchemas database (known.insert schema.name schema) definitions)

def addTable (database : Database) (schema : TableSchema) : Database :=
  ⟨schema.name, database.schemas.insert schema.name schema, database.rows.insert schema.name []⟩

def createdMessage (count : Nat) (active : Text) : QueryResult :=
  .message ("Created " ++ Numeral.wholeText count ++ " table(s). Active: " ++ active)

def createTables (database : Database) (definitions : List CreateTable) :
    Except SqlError Outcome := do
  let created ← database.newSchemas database.schemas definitions
  if created.isEmpty then
    return .unchanged (createdMessage 0 (if database.active = "" then "-" else database.active))
  else
    let next := created.foldl addTable database
    return .published next (createdMessage created.length next.active)

/-- Stores the rows of a SELECT under a name that is free or names a view. -/
def createView (database : Database) (definition : CreateView) : Except SqlError Outcome := do
  let view := definition.view
  if (database.schemas.get? view).any (!·.isView) then invalid (.tableInTheWay view)
  let result ← database.select definition.select
  let next : Database :=
    ⟨view, database.schemas.insert view (viewSchema view result),
      database.rows.insert view result.rows⟩
  return .published next (.message ("Created view " ++ view ++ " (materialized) with " ++
    Numeral.wholeText result.rows.length ++ " row(s)."))

/-- The database without a table. If the active table is gone, the last one becomes active. -/
def eraseTable (database : Database) (table : Text) : Database :=
  let schemas := database.schemas.erase table
  let active :=
    if database.active = table || !schemas.contains database.active then
      schemas.names.getLast?.getD ""
    else database.active
  ⟨active, schemas, database.rows.erase table⟩

def dropTable (database : Database) (drop : DropTable) : Except SqlError Outcome :=
  let table := drop.table
  if !database.schemas.contains table then
    if drop.ifExists then
      .ok (.unchanged (.message ("Table " ++ table ++ " does not exist; nothing dropped.")))
    else .error (.tableNotFound table)
  else
    match (database.referencing table).filter (·.1 ≠ table) with
    | [] => .ok (.published (database.eraseTable table) (.message ("Dropped table " ++ table ++ ".")))
    | blockers =>
        .error (.blocked (.referencedTable table
          (blockers.map fun (child, foreignKey) => foreignKey.describe child)))

/-! ## Writes -/

/-- The columns that a tuple of so many values fills. Without a list of columns, a tuple may leave out
an id that was added to the table. -/
def insertColumns (schema : TableSchema) (listed : Option (List Text)) (count : Nat) :
    List Text :=
  match listed with
  | some columns => columns
  | none =>
      if schema.keySource = .synthesized && count + 1 = schema.columnNames.length then
        schema.columnNames.filter (· ≠ "id")
      else schema.columnNames

/-- The typed rows of the tuples, the first of which has the given number. -/
def typedRows (schema : TableSchema) (listed : Option (List Text)) :
    Nat → List (List Scalar) → Except Failure (List Row)
  | _, [] => return []
  | number, values :: tuples => do
      let columns := insertColumns schema listed values.length
      if columns.length ≠ values.length then
        orFail (invalid (.valueCount number columns.length values.length))
      let row ← castRow schema.columns (.ofList (columns.zip values))
      return row :: (← typedRows schema listed (number + 1) tuples)

def checkInsertColumns (schema : TableSchema) : Option (List Text) → Except SqlError Unit
  | none => return ()
  | some columns => do
      columns.forM schema.requireColumn
      if !decide columns.Nodup then invalid (.repeatedInsertColumn schema.name)

def publish {α : Type} (database : Database) (write : Staging α) :
    Except Failure (α × Database) :=
  match write.run .empty with
  | (.ok answer, scratch) => .ok (answer, database.commit scratch)
  | (.error error, _) => .error (.rejected error)

def insert (database : Database) (insertion : Insert) : Except Failure Outcome := do
  let schema ← orFail (database.requireTable insertion.table)
  orFail (checkInsertColumns schema insertion.columns)
  let rows ← typedRows schema insertion.columns 1 insertion.rows
  let (inserted, next) ← database.publish (Integrity.insert database schema.name rows)
  match inserted with
  | [row] => return .published next ⟨row.names, [row]⟩
  | _ =>
      return .published next (.affected ("Inserted " ++ Numeral.wholeText inserted.length ++
        " row(s) into " ++ schema.name ++ ".") inserted.length)

/-- A row after its assignments, each computed from the row before. -/
def assigned (assignments : List Assignment) (row : Row) : Row :=
  assignments.foldl (fun updated assignment =>
    updated.insert assignment.column (assignment.expression.value row)) row

def assign (schema : TableSchema) (assignments : List Assignment) (row : Row) :
    Except Failure Row :=
  castRow schema.columns (assigned assignments row)

def changesFrom (schema : TableSchema) (update : Update) :
    Nat → List Row → Except Failure (List Integrity.Change)
  | _, [] => return []
  | position, row :: rows => do
      if update.condition.all (·.holds row) then
        let after ← assign schema update.assignments row
        return ⟨position, row, after⟩ :: (← changesFrom schema update (position + 1) rows)
      else changesFrom schema update (position + 1) rows

def update (database : Database) (limit : Int) (change : Update) : Except Failure Outcome := do
  let schema ← orFail (database.requireTable change.table)
  orFail (change.assignments.forM fun assignment => schema.requireColumn assignment.column)
  let changes ← changesFrom schema change 0 (database.tableRows schema.name)
  let (count, next) ← database.publish (Integrity.update database limit schema.name changes)
  return .published next (.affected
    ("Updated " ++ Numeral.wholeText count ++ " row(s) in " ++ schema.name ++ ".") count)

def deletedPositions (deletion : Delete) (rows : List Row) : List Nat :=
  (rows.zipIdx.filter fun (row, _) => deletion.condition.all (·.holds row)).map (·.2)

def delete (database : Database) (limit : Int) (deletion : Delete) : Except Failure Outcome := do
  let schema ← orFail (database.requireTable deletion.table)
  let positions := deletedPositions deletion (database.tableRows schema.name)
  let (count, next) ← database.publish (Integrity.delete database limit schema.name positions)
  return .published next (.affected
    ("Deleted " ++ Numeral.wholeText count ++ " row(s) from " ++ schema.name ++ ".") count)

/-! ## Statements and texts -/

/-- Runs a statement; `limit` bounds the depth of cascades. -/
def run (database : Database) (limit : Int) : Statement → Except Failure Outcome
  | .createTable definition => orFail (database.createTables [definition])
  | .createView definition => orFail (database.createView definition)
  | .dropTable drop => orFail (database.dropTable drop)
  | .insert insertion => database.insert insertion
  | .update change => database.update limit change
  | .delete deletion => database.delete limit deletion
  | .select query => orFail ((database.select query).map .unchanged)

/-- The definitions of a batch, which may hold no other statements. -/
def onlyDefinitions : List Statement → Except SqlError (List CreateTable)
  | [] => return []
  | .createTable definition :: statements => return definition :: (← onlyDefinitions statements)
  | _ => .error (.malformed .severalStatements)

/-- Runs a text that has no comments. One that begins with CREATE TABLE is a batch. -/
def runText (database : Database) (limit : Int) (sql : Text) : Except Failure Outcome := do
  let text := Text.trim sql
  if text.isEmpty then return .unchanged (.message "Empty SQL")
  else if SourceText.kind? text = some .createTable then
    let statements ← (SourceText.statements text).mapM parse
    let definitions ← orFail (onlyDefinitions statements)
    orFail (database.createTables definitions)
  else
    database.run limit (← parse text)

def execute (database : Database) (limit : Int) (sql : Text) : Except Failure Outcome :=
  database.runText limit (SourceText.withoutComments sql)

def executeChecked (database : Database) (limit : Int) (sql : Text) : Except Failure Outcome := do
  (← database.execute limit sql).checked

end Database

def defaultDepthLimit : Int := 64

end SnapshotSql
