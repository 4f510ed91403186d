import SnapshotSql.Database

/-! # Keys, references and cascades

A write is staged table by table beside the snapshot, which it never touches. Rows enter by INSERT one
at a time, each checked against those before it. A DELETE or UPDATE spreads in waves: a wave is a set
of rows of one table, and each foreign key that points at the table answers it by refusing, by
setting its columns to null, or by a wave of its own. The waves of one depth are all answered before
those of the next, and the depth is limited. What was staged before an error stays staged.
-/
namespace SnapshotSql

/-! ## Keys of one table -/

/-- The keys seen so far in a table: of its primary key, and of each UNIQUE constraint in turn. -/
structure SeenKeys where
  primary : List Text
  unique : List (List Text)

namespace SeenKeys

def none (schema : TableSchema) : SeenKeys :=
  ⟨[], schema.uniqueKeys.map fun _ => []⟩

def checkNotNull (schema : TableSchema) (row : Row) : Except SqlError Unit :=
  match schema.columns.find? fun column => column.notNull && (row.value column.name).isNull with
  | some column => .error (.violated (.nullColumn column.name schema.name))
  | .none => .ok ()

/-- Adds the primary key of a row, which must be complete and new. -/
def addPrimary (schema : TableSchema) (seen : List Text) (row : Row) :
    Except SqlError (List Text) :=
  if schema.primaryKey.isEmpty then .ok seen
  else
    let values := row.values schema.primaryKey
    let key := Key.ofValues values
    if Key.hasNull values then
      .error (.violated (.nullPrimaryKey schema.primaryKey schema.name))
    else if seen.contains key then
      .error (.violated (.repeatedPrimaryKey (Key.display values) schema.name))
    else .ok (key :: seen)

/-- Adds the values of a row under one UNIQUE constraint, which must be new unless one is null. -/
def addUnique (schema : TableSchema) (columns : List Text) (seen : List Text) (row : Row) :
    Except SqlError (List Text) :=
  let values := row.values columns
  let key := Key.ofValues values
  if Key.hasNull values then .ok seen
  else if seen.contains key then
    .error (.violated (.repeatedUnique (Key.display values) columns schema.name))
  else .ok (key :: seen)

def addUniques (schema : TableSchema) (row : Row) :
    List (List Text) → List (List Text) → Except SqlError (List (List Text))
  | columns :: constraints, seen :: rest => do
      let seen ← addUnique schema columns seen row
      return seen :: (← addUniques schema row constraints rest)
  | _, rest => .ok rest

def add (schema : TableSchema) (seen : SeenKeys) (row : Row) : Except SqlError SeenKeys := do
  checkNotNull schema row
  let primary ← addPrimary schema seen.primary row
  let unique ← addUniques schema row schema.uniqueKeys seen.unique
  return ⟨primary, unique⟩

def ofRows (schema : TableSchema) (rows : List Row) : Except SqlError SeenKeys :=
  rows.foldlM (add schema) (none schema)

end SeenKeys

/-! ## Staged tables -/

abbrev Scratch := OrderedMap (List Row)

/-- A step of a write: it changes staged tables and may be refused. -/
abbrev Staging := ExceptT SqlError (StateM Scratch)

namespace Staging

def check {α : Type} (result : Except SqlError α) : Staging α :=
  fun scratch => (result, scratch)

def rowsIn (database : Database) (scratch : Scratch) (table : Text) : List Row :=
  (scratch.get? table).getD (database.tableRows table)

def rows (database : Database) (table : Text) : Staging (List Row) :=
  fun scratch => (.ok (rowsIn database scratch table), scratch)

def setRows (table : Text) (rows : List Row) : Staging Unit :=
  fun scratch => (.ok (), scratch.insert table rows)

end Staging

def Database.commit (database : Database) (scratch : Scratch) : Database :=
  { database with rows := database.rows.insertAll scratch }

namespace Integrity

def validateKeys (database : Database) (table : Text) : Staging Unit := do
  let schema ← Staging.check (database.requireTable table)
  let _ ← Staging.check (SeenKeys.ofRows schema (← Staging.rows database table))

def offeredKeys (foreignKey : ForeignKey) (parents : List Row) : List Text :=
  parents.map fun row => Key.ofValues (row.values foreignKey.refColumns)

/-- The key by which a row refers to a parent, unless one of its values is null. -/
def reference? (foreignKey : ForeignKey) (row : Row) : Option Text :=
  let values := row.values foreignKey.columns
  if Key.hasNull values then none else some (Key.ofValues values)

def checkReferences (table : Text) (foreignKey : ForeignKey) (parents rows : List Row) :
    Except SqlError Unit :=
  let offered := offeredKeys foreignKey parents
  rows.forM fun row =>
    match reference? foreignKey row with
    | none => .ok ()
    | some key =>
        if offered.contains key then .ok ()
        else .error (.violated (.missingParent (foreignKey.describe table) foreignKey.refTable
          (Key.display (row.values foreignKey.columns))))

def checkForeignKeys (database : Database) (table : Text) (rows : List Row) : Staging Unit := do
  let schema ← Staging.check (database.requireTable table)
  schema.foreignKeys.forM fun foreignKey => do
    let parents ← Staging.rows database foreignKey.refTable
    Staging.check (checkReferences table foreignKey parents rows)

/-! ## INSERT -/

/-- One more than the greatest integer of a column, counting from zero if it holds none. -/
def nextValue (staged : List Row) (column : Text) : Int :=
  let ints := staged.filterMap fun row =>
    match row.value column with
    | .int value => some value
    | _ => none
  ints.max?.getD 0 + 1

/-- Gives the next value to every counting column in which the row has none. The row then lists its
columns in the order of the schema. -/
def fillCounters (schema : TableSchema) (staged : List Row) (row : Row) : Row :=
  match schema.columns.filter fun column => column.autoIncrement && (row.value column.name).isNull with
  | [] => row
  | counters =>
      let filled := counters.foldl
        (fun row column => row.insert column.name (.int (nextValue staged column.name))) row
      .ofList (schema.columnNames.filterMap fun name => (filled.get? name).map (name, ·))

/-- Stages one more row of a table. A row may refer to itself. -/
def insertRow (database : Database) (schema : TableSchema) (table : Text) (seen : SeenKeys)
    (row : Row) : Staging (SeenKeys × Row) := do
  let staged ← Staging.rows database table
  let row := fillCounters schema staged row
  let seen ← Staging.check (seen.add schema row)
  Staging.setRows table (staged ++ [row])
  checkForeignKeys database table [row]
  return (seen, row)

def insertRows (database : Database) (schema : TableSchema) (table : Text) :
    SeenKeys → List Row → Staging (List Row)
  | _, [] => return []
  | seen, row :: rows => do
      let (seen, row) ← insertRow database schema table seen row
      return row :: (← insertRows database schema table seen rows)

def insert (database : Database) (table : Text) (newRows : List Row) : Staging (List Row) := do
  let schema ← Staging.check (database.requireTable table)
  let staged ← Staging.rows database table
  Staging.setRows table staged
  let seen ← Staging.check (SeenKeys.ofRows schema staged)
  insertRows database schema table seen newRows

/-! ## DELETE -/

structure Wave where
  table : Text
  positions : List Nat
  deriving DecidableEq

def doomed (waves : List Wave) (table : Text) : List Nat :=
  (waves.filter (·.table = table)).flatMap (·.positions)

def rowsAt (rows : List Row) (positions : List Nat) : List Row :=
  positions.filterMap (rows[·]?)

def rowsExcept (rows : List Row) (positions : List Nat) : List Row :=
  (rows.zipIdx.filter (!positions.contains ·.2)).map (·.1)

def changeAt (rows : List Row) (positions : List Nat) (change : Row → Row) : List Row :=
  rows.zipIdx.map fun (row, position) => if positions.contains position then change row else row

def nullOut (foreignKey : ForeignKey) (row : Row) : Row :=
  foreignKey.columns.foldl (fun row column => row.insert column .null) row

/-- The positions of the rows, other than those left out, that refer to one of the keys. -/
def referringTo (foreignKey : ForeignKey) (keys : List Text) (rows : List Row)
    (leftOut : List Nat) : List Nat :=
  (rows.zipIdx.filter fun (row, position) =>
    !leftOut.contains position && (reference? foreignKey row).any keys.contains).map (·.2)

/-- The complete keys that rows of a wave hold and no row outside all waves holds. -/
def lostKeys (foreignKey : ForeignKey) (parents : List Row) (wave doomedParents : List Nat) :
    List Text :=
  let going := (rowsAt parents wave).filter fun row => !Key.hasNull (row.values foreignKey.refColumns)
  let kept := offeredKeys foreignKey (rowsExcept parents doomedParents)
  (offeredKeys foreignKey going).filter (!kept.contains ·)

def answerDelete (database : Database) (waves : List Wave) (wave : Wave) (parents : List Row)
    (child : Text) (foreignKey : ForeignKey) : Staging (Option Wave) := do
  let lost := lostKeys foreignKey parents wave.positions (doomed waves wave.table)
  let children ← Staging.rows database child
  let positions := referringTo foreignKey lost children (doomed waves child)
  if positions.isEmpty then return none
  else
    match foreignKey.onDelete with
    | .restrict =>
        throw (.blocked (.restrictedDelete wave.table positions.length child
          (foreignKey.describe child)))
    | .cascade => return some ⟨child, positions⟩
    | .setNull =>
        Staging.setRows child (changeAt children positions (nullOut foreignKey))
        return none

/-- The waves that the foreign keys of a list answer to a wave. The wave is measured against the
snapshot unless its table has been staged before the wave: then against what is staged. -/
def spreadDelete (database : Database) (wave : Wave) (staged : Bool) :
    List (Text × ForeignKey) → List Wave → Staging (List Wave)
  | [], _ => return []
  | (child, foreignKey) :: references, waves => do
      let parents ←
        if staged then Staging.rows database wave.table
        else pure (database.tableRows wave.table)
      match ← answerDelete database waves wave parents child foreignKey with
      | none => spreadDelete database wave staged references waves
      | some next =>
          return next :: (← spreadDelete database wave staged references (waves ++ [next]))

def deleteDepth (database : Database) : List Wave → List Wave → Staging (List Wave)
  | [], _ => return []
  | wave :: level, waves => do
      let staged := (← get).contains wave.table
      let next ← spreadDelete database wave staged (database.referencing wave.table) waves
      return next ++ (← deleteDepth database level (waves ++ next))

/-- All waves of a DELETE, from those of one depth on; `depths` more depths are allowed. -/
def deleteWaves (database : Database) (limit : Int) :
    Nat → List Wave → List Wave → Staging (List Wave)
  | _, [], waves => return waves
  | 0, _ :: _, _ => throw (.blocked (.depthLimit "DELETE" limit))
  | depths + 1, level, waves => do
      let next ← deleteDepth database level waves
      deleteWaves database limit depths next (waves ++ next)

/-- The number of depths that a limit allows: the first wave has depth zero. -/
def depthsWithin (limit : Int) : Nat :=
  (limit + 1).toNat

def removeDoomed (database : Database) (waves : List Wave) (table : Text) : Staging Unit := do
  let positions := doomed waves table
  if !positions.isEmpty then
    Staging.setRows table (rowsExcept (← Staging.rows database table) positions)

/-- Removes rows by position with everything that hangs on them, and answers the number of the given
positions. -/
def delete (database : Database) (limit : Int) (table : Text) (positions : List Nat) :
    Staging Nat := do
  let first : Wave := ⟨table, positions⟩
  let waves ← deleteWaves database limit (depthsWithin limit) [first] [first]
  (waves.map (·.table)).eraseDups.forM (removeDoomed database waves)
  return positions.length

/-! ## UPDATE -/

structure Revision where
  table : Text
  changes : List (Row × Row)

/-- The new values for each complete key that changes; of two changes of a key the later counts. -/
def changedKeys (foreignKey : ForeignKey) (changes : List (Row × Row)) :
    List (Text × List Scalar) :=
  (changes.filterMap fun (before, after) =>
    let oldValues := before.values foreignKey.refColumns
    let newValues := after.values foreignKey.refColumns
    if Key.hasNull oldValues || Key.ofValues oldValues = Key.ofValues newValues then none
    else some (Key.ofValues oldValues, newValues)).reverse

def withReference (foreignKey : ForeignKey) (values : List Scalar) (row : Row) : Row :=
  (foreignKey.columns.zip values).foldl (fun row (column, value) => row.insert column value) row

def followKey (foreignKey : ForeignKey) (keys : List (Text × List Scalar)) (row : Row) : Row :=
  if foreignKey.onUpdate = .cascade then
    match (reference? foreignKey row).bind (keys.lookup ·) with
    | some values => withReference foreignKey values row
    | none => row
  else nullOut foreignKey row

def answerUpdate (database : Database) (revision : Revision) (child : Text)
    (foreignKey : ForeignKey) : Staging (Option Revision) := do
  let keys := changedKeys foreignKey revision.changes
  let children ← Staging.rows database child
  let positions := referringTo foreignKey (keys.map (·.1)) children []
  if positions.isEmpty then return none
  else if foreignKey.onUpdate = .restrict then
    throw (.blocked (.restrictedUpdate revision.table positions.length child
      (foreignKey.describe child)))
  else
    let follow := followKey foreignKey keys
    Staging.setRows child (changeAt children positions follow)
    return some ⟨child, (rowsAt children positions).map fun row => (row, follow row)⟩

def spreadUpdate (database : Database) (revision : Revision) :
    List (Text × ForeignKey) → Staging (List Revision)
  | [] => return []
  | (child, foreignKey) :: references => do
      let next ← answerUpdate database revision child foreignKey
      return next.toList ++ (← spreadUpdate database revision references)

def updateDepth (database : Database) : List Revision → Staging (List Revision)
  | [] => return []
  | revision :: level => do
      let next ← spreadUpdate database revision (database.referencing revision.table)
      return next ++ (← updateDepth database level)

def updateTables (database : Database) (limit : Int) :
    Nat → List Revision → Staging (List Text)
  | _, [] => return []
  | 0, _ :: _ => throw (.blocked (.depthLimit "UPDATE" limit))
  | depths + 1, level => do
      let next ← updateDepth database level
      return level.map (·.table) ++ (← updateTables database limit depths next)

def replaceAt (rows : List Row) (replacements : List (Nat × Row)) : List Row :=
  replacements.foldl (fun rows (position, row) => rows.set position row) rows

def validate (database : Database) (table : Text) : Staging Unit := do
  validateKeys database table
  checkForeignKeys database table (← Staging.rows database table)

structure Change where
  position : Nat
  before : Row
  after : Row

/-- Replaces rows and lets the references to changed keys follow. All tables touched are checked at
the end. Answers the number of changes. -/
def update (database : Database) (limit : Int) (table : Text) (changes : List Change) :
    Staging Nat := do
  let staged ← Staging.rows database table
  Staging.setRows table (replaceAt staged (changes.map fun change => (change.position, change.after)))
  let first : Revision := ⟨table, changes.map fun change => (change.before, change.after)⟩
  let tables ← updateTables database limit (depthsWithin limit) [first]
  tables.eraseDups.forM (validate database)
  return changes.length

end Integrity

end SnapshotSql
