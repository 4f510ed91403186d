import SnapshotSql.Proofs.RebuiltSchemas
import SnapshotSql.Proofs.SingleInserts
import SnapshotSql.Proofs.TypedRows

/-! # Columns that count

A counting column gets the next number where a row has no value for it. The statement of a table does not say
which columns count, nor that an id was added which a tuple may leave out. A row that has a value in every
counting column is stored as it is, so that it is inserted alike into a table and into the one that its statement
creates. Any other row is stored differently by the two, if it can be stored at all.
-/
namespace SnapshotSql

/-! ## Rows with values in all counting columns -/

/-- A row with a value in every counting column. -/
def TableSchema.Counted (schema : TableSchema) (row : Row) : Prop :=
  ∀ column ∈ schema.columns, column.autoIncrement = true → (row.value column.name).isNull = false

instance (schema : TableSchema) (row : Row) : Decidable (schema.Counted row) :=
  inferInstanceAs (Decidable (∀ column ∈ schema.columns, _ → _))

/-- After insertions of a value that each name determines, the names inserted have their values. -/
theorem OrderedMap.get?_foldl_insert_named {α : Type} (valueOf : Text → α) {entries : List (Text × α)}
    (h : ∀ entry ∈ entries, entry.2 = valueOf entry.1) (map : OrderedMap α) (name : Text) :
    (entries.foldl (fun map entry => map.insert entry.1 entry.2) map).get? name =
      if name ∈ entries.map (·.1) then some (valueOf name) else map.get? name := by
  induction entries generalizing map with
  | nil => simp
  | cons entry entries ih =>
    obtain ⟨hentry, hrest⟩ := List.forall_mem_cons.mp h
    rw [List.foldl_cons, ih hrest, get?_insert, hentry]
    by_cases hlater : name ∈ entries.map (·.1)
    · simp only [List.map_cons, List.mem_cons, hlater, or_true, if_true]
    · by_cases hname : name = entry.1
      · simp [hname]
      · simp only [List.map_cons, List.mem_cons, hlater, hname, or_self, if_false]

namespace Integrity

variable {schema : TableSchema} {row : Row} {staged : List Row}

/-- A counting column without a value gets the next number. -/
theorem value_fillCounters {column : Column} (hcolumn : column ∈ schema.columns)
    (hcounts : column.autoIncrement = true) (hnull : (row.value column.name).isNull = true) :
    (fillCounters schema staged row).value column.name = .int (nextValue staged column.name) := by
  have hcounter : column ∈ schema.columns.filter
      fun column => column.autoIncrement && (row.value column.name).isNull := by
    simp [hcolumn, hcounts, hnull]
  unfold fillCounters
  split
  · next hnone =>
    rw [hnone] at hcounter
    cases hcounter
  · extract_lets filled
    have hfilled : filled.get? column.name = some (.int (nextValue staged column.name)) := by
      have hnext (counters : List Column) : ∀ entry ∈ counters.map fun column =>
          (column.name, Scalar.int (nextValue staged column.name)), entry.2 = .int (nextValue staged entry.1) := by
        simp
      have hget := OrderedMap.get?_foldl_insert_named (fun name => Scalar.int (nextValue staged name))
        (hnext (schema.columns.filter fun column => column.autoIncrement && (row.value column.name).isNull))
        row column.name
      rw [List.foldl_map, List.map_map] at hget
      rw [hget, if_pos]
      exact List.mem_map.mpr ⟨column, hcounter, rfl⟩
    have hvalues : ∀ entry ∈ schema.columnNames.filterMap fun name => (filled.get? name).map (name, ·),
        entry.2 = filled.value entry.1 := by
      intro entry hentry
      obtain ⟨name, -, hentry⟩ := List.mem_filterMap.mp hentry
      obtain ⟨value, hvalue, rfl⟩ := Option.map_eq_some_iff.mp hentry
      simp [Row.value, hvalue]
    have hlisted : column.name ∈
        (schema.columnNames.filterMap fun name => (filled.get? name).map (name, ·)).map (·.1) := by
      refine List.mem_map.mpr ⟨(column.name, .int (nextValue staged column.name)), ?_, rfl⟩
      refine List.mem_filterMap.mpr ⟨column.name, List.mem_map_of_mem hcolumn, ?_⟩
      rw [hfilled, Option.map_some]
    rw [Row.value, OrderedMap.ofList, OrderedMap.get?_foldl_insert_named filled.value hvalues, if_pos hlisted]
    simp [Row.value, hfilled]

/-- Exactly the rows that leave nothing to count are stored as they are. -/
theorem fillCounters_eq_self_iff : fillCounters schema staged row = row ↔ schema.Counted row := by
  constructor
  · intro h column hcolumn hcounts
    by_contra hnull
    have hvalue : (fillCounters schema staged row).value column.name = _ :=
      value_fillCounters hcolumn hcounts (by simpa using hnull)
    rw [h] at hvalue
    simp [hvalue, Scalar.isNull] at hnull
  · intro h
    have hnone : schema.columns.filter
        (fun column => column.autoIncrement && (row.value column.name).isNull) = [] := by
      rw [List.filter_eq_nil_iff]
      intro column hcolumn
      simpa using h column hcolumn
    rw [fillCounters, hnone]

end Integrity

/-! ## Typed rows -/

namespace Database

variable {schema : TableSchema} {listed : Option (List Text)} {tuples : List (List Scalar)} {rows : List Row}

theorem castRow_rebuilt (schema : TableSchema) (row : Row) :
    castRow schema.rebuilt.columns row = castRow schema.columns row := by
  have hcast (columns : List Column) (typed : Row) :
      castColumns row typed (columns.map Column.unflagged) = castColumns row typed columns := by
    induction columns generalizing typed with
    | nil => rfl
    | cons column columns ih => simp only [List.map_cons, castColumns, ih, Column.unflagged]
  exact hcast schema.columns .empty

/-- Only an id that was added may be left out, and only of the table that it was added to. -/
theorem insertColumns_rebuilt (schema : TableSchema) (listed : Option (List Text)) (count : Nat) :
    insertColumns schema.rebuilt listed count = insertColumns schema listed count ∨
      insertColumns schema.rebuilt listed count = schema.columnNames ∧
        insertColumns schema listed count = schema.columnNames.filter (· ≠ Text.ofString "id") ∧
          schema.keySource = .synthesized ∧ count + 1 = schema.columnNames.length := by
  cases listed with
  | some columns => exact .inl rfl
  | none =>
    have hrebuilt : insertColumns schema.rebuilt none count = schema.columnNames := by
      rw [insertColumns, if_neg (by simp [TableSchema.rebuilt]), TableSchema.columnNames_rebuilt]
    rw [hrebuilt, insertColumns]
    split
    · next hadded => exact .inr ⟨rfl, rfl, by simpa using hadded⟩
    · exact .inl rfl

theorem typedRows_of_rebuilt {number : Nat} (h : typedRows schema.rebuilt listed number tuples = .ok rows) :
    typedRows schema listed number tuples = .ok rows := by
  induction tuples generalizing number rows with
  | nil => exact h
  | cons values tuples ih =>
    rw [typedRows_cons_eq_ok] at h ⊢
    obtain ⟨row, rest, hcount, hrow, hrest, rfl⟩ := h
    rcases insertColumns_rebuilt schema listed values.length with hsame | ⟨hall, -, -, hless⟩
    · rw [castRow_rebuilt] at hrow
      exact ⟨row, rest, hsame ▸ hcount, hsame ▸ hrow, ih hrest, rfl⟩
    · rw [hall] at hcount
      omega

/-- A table whose tuples may leave out the id has a column of this name that counts. -/
theorem exists_id_of_created (h : schema.Created) (hsource : schema.keySource = .synthesized) :
    ∃ column ∈ schema.columns, column.name = "id" ∧ column.autoIncrement = true := by
  obtain ⟨known, definition, text, -, h⟩ := h
  obtain ⟨columns, -, -, hchosen⟩ := (buildSchema_eq_ok.mp h).columns
  rw [hsource] at hchosen
  unfold choosePrimaryKey at hchosen
  split at hchosen
  · obtain ⟨_, -, hchosen⟩ := Check.bind_eq_ok.mp hchosen
    simp at hchosen
  · dsimp only at hchosen
    split at hchosen
    · simp at hchosen
    · split at hchosen
      · simp at hchosen
      · obtain ⟨-, heq⟩ := Prod.mk.inj (Except.ok.inj hchosen)
        rw [← (Prod.mk.inj heq).2]
        exact ⟨_, List.mem_cons_self, rfl, rfl⟩

/-- Without its id a tuple does not have a value in every counting column. -/
theorem not_counted_of_filter (hcreated : schema.Created) (hsource : schema.keySource = .synthesized)
    {values : List Scalar} {row : Row}
    (h : castRow schema.columns (.ofList ((schema.columnNames.filter (· ≠ Text.ofString "id")).zip values)) = .ok row) :
    ¬ schema.Counted row := by
  intro hcounted
  obtain ⟨column, hmem, hname, hcounts⟩ := exists_id_of_created hcreated hsource
  have hmissing : (OrderedMap.ofList ((schema.columnNames.filter (· ≠ Text.ofString "id")).zip values)).get? column.name = none := by
    cases hget : (OrderedMap.ofList ((schema.columnNames.filter (· ≠ Text.ofString "id")).zip values)).get? column.name with
    | none => rfl
    | some value =>
      rcases OrderedMap.mem_of_get?_foldl_insert hget with hthere | hfalse
      · have hlisted := (List.of_mem_zip hthere).1
        simp [hname] at hlisted
      · cases hfalse
  have hnull := hcounted column hmem hcounts
  rw [Row.value, get?_castColumns_of_none h hmissing] at hnull
  cases hnull

theorem typedRows_rebuilt {number : Nat} (hcreated : schema.Created)
    (h : typedRows schema listed number tuples = .ok rows) (hcounted : ∀ row ∈ rows, schema.Counted row) :
    typedRows schema.rebuilt listed number tuples = .ok rows := by
  induction tuples generalizing number rows with
  | nil => exact h
  | cons values tuples ih =>
    rw [typedRows_cons_eq_ok] at h ⊢
    obtain ⟨row, rest, hcount, hrow, hrest, rfl⟩ := h
    obtain ⟨hfirst, hlater⟩ := List.forall_mem_cons.mp hcounted
    refine ⟨row, rest, ?_⟩
    rw [castRow_rebuilt]
    rcases insertColumns_rebuilt schema listed values.length with hsame | ⟨-, hfilter, hsource, -⟩
    · rw [hsame]
      exact ⟨hcount, hrow, ih hrest hlater, rfl⟩
    · rw [hfilter] at hrow
      exact absurd hfirst (not_counted_of_filter hcreated hsource hrow)

end Database

/-! ## Inserting -/

namespace Integrity

open Staging

variable {database other : Database} {table : Text} {schema : TableSchema} {seen next : SeenKeys} {row : Row}
  {rows staged inserted : List Row} {after : Scratch}

theorem counted_rebuilt (schema : TableSchema) (row : Row) : schema.rebuilt.Counted row := by
  intro column hcolumn hcounts
  obtain ⟨original, -, rfl⟩ := List.mem_map.mp hcolumn
  cases hcounts

theorem add_rebuilt (schema : TableSchema) (seen : SeenKeys) (row : Row) :
    seen.add schema.rebuilt row = seen.add schema row := by
  have hnull : SeenKeys.checkNotNull schema.rebuilt row = SeenKeys.checkNotNull schema row := by
    have hfind : schema.rebuilt.columns.find? (fun column => column.notNull && (row.value column.name).isNull) =
        (schema.columns.find? fun column => column.notNull && (row.value column.name).isNull).map
          Column.unflagged := List.find?_map ..
    rw [SeenKeys.checkNotNull, SeenKeys.checkNotNull, hfind]
    cases schema.columns.find? fun column => column.notNull && (row.value column.name).isNull <;> rfl
  have hunique (constraints seens : List (List Text)) :
      SeenKeys.addUniques schema.rebuilt row constraints seens = SeenKeys.addUniques schema row constraints seens := by
    induction constraints generalizing seens with
    | nil => cases seens <;> rfl
    | cons columns constraints ih =>
      cases seens with
      | nil => rfl
      | cons first seens =>
        simp only [SeenKeys.addUniques, ih]
        rfl
  rw [SeenKeys.add, hnull, hunique]
  rfl

/-- A row that is stored as it is has to pass the checks of keys and to find its parents. -/
theorem appends_iff_of_counted (hfound : database.schemas.get? table = some schema) (hcounted : schema.Counted row) :
    Appends database schema table staged seen row next ↔ seen.add schema row = .ok next ∧
      ∀ foreignKey ∈ schema.foreignKeys,
        Matched foreignKey (rowsIn database (only table (staged ++ [row])) foreignKey.refTable) [row] := by
  have hstored : fillCounters schema staged row = row := fillCounters_eq_self_iff.mpr hcounted
  constructor
  · rintro ⟨hkeys, found, hthere, hparents⟩
    rw [hfound] at hthere
    cases hthere
    rw [hstored] at hkeys hparents
    exact ⟨hkeys, hparents⟩
  · rintro ⟨hkeys, hparents⟩
    rw [← hstored] at hkeys hparents
    exact ⟨hkeys, schema, hfound, hparents⟩

/-- The rows are stored as they are exactly if they leave nothing to count. -/
theorem inserted_eq_iff (h : Runs (insertRows database schema table seen rows) (only table staged) inserted after) :
    inserted = rows ↔ ∀ row ∈ rows, schema.Counted row := by
  induction rows generalizing seen staged inserted with
  | nil =>
    obtain ⟨rfl, -⟩ := runs_pure.mp h
    simp
  | cons row rows ih =>
    obtain ⟨next, rest, -, hrest, rfl⟩ := runs_insertRows_cons.mp h
    rw [List.cons.injEq, List.forall_mem_cons, fillCounters_eq_self_iff, ih hrest]

/-- Another snapshot has the schema of the table built again, and the other tables with the same rows. -/
structure Rebuilds (database : Database) (table : Text) (schema : TableSchema) (other : Database) : Prop where
  before : database.schemas.get? table = some schema
  after : other.schemas.get? table = some schema.rebuilt
  rows : ∀ name, name ≠ table → other.tableRows name = database.tableRows name

theorem Rebuilds.rowsIn_only (h : Rebuilds database table schema other) (staged : List Row) (name : Text) :
    rowsIn other (only table staged) name = rowsIn database (only table staged) name := by
  rw [Staging.rowsIn_only, Staging.rowsIn_only]
  split
  · rfl
  · next hother => exact h.rows name hother

/-- Rows that leave nothing to count are inserted alike. -/
theorem Rebuilds.runs_iff (h : Rebuilds database table schema other) (hcounted : ∀ row ∈ rows, schema.Counted row) :
    Runs (insertRows other schema.rebuilt table seen rows) (only table staged) inserted after ↔
      Runs (insertRows database schema table seen rows) (only table staged) inserted after := by
  induction rows generalizing seen staged inserted with
  | nil => exact Iff.rfl
  | cons row rows ih =>
    obtain ⟨hrow, hrest⟩ := List.forall_mem_cons.mp hcounted
    have hstored : fillCounters schema staged row = row := fillCounters_eq_self_iff.mpr hrow
    have hrebuilt : fillCounters schema.rebuilt staged row = row :=
      fillCounters_eq_self_iff.mpr (counted_rebuilt schema row)
    have happends (next : SeenKeys) : Appends other schema.rebuilt table staged seen row next ↔
        Appends database schema table staged seen row next := by
      rw [appends_iff_of_counted h.after (counted_rebuilt schema row), appends_iff_of_counted h.before hrow, add_rebuilt]
      simp only [h.rowsIn_only]
      exact and_congr_right fun _ => List.forall_mem_map
    simp only [runs_insertRows_cons, happends, hstored, hrebuilt, ih hrest]

end Integrity

namespace Database

open Staging Integrity

variable {database other : Database} {schema : TableSchema} {insertion : Insert} {rows : List Row}

def Stores (database : Database) (insertion : Insert) (rows : List Row) : Prop :=
  ∃ outcome, database.insert insertion = .ok outcome ∧
    (outcome.snapshot database).tableRows insertion.table = rows

/-- Into a table without rows, the typed tuples are inserted. -/
theorem stores_iff (hfound : database.schemas.get? insertion.table = some schema)
    (hname : schema.name = insertion.table) (hempty : database.tableRows insertion.table = []) :
    database.Stores insertion rows ↔ checkInsertColumns schema insertion.columns = .ok () ∧
      ∃ typed, typedRows schema insertion.columns 1 insertion.rows = .ok typed ∧
        Runs (insertRows database schema insertion.table (.none schema) typed) (only insertion.table []) rows
          (only insertion.table rows) := by
  have hstores : database.Stores insertion rows ↔
      ∃ next, database.InsertsTo insertion next ∧ next.tableRows insertion.table = rows := by
    simp only [Stores, InsertsTo]
    constructor
    · rintro ⟨outcome, hinsert, hrows⟩
      exact ⟨_, ⟨outcome, hinsert, rfl⟩, hrows⟩
    · rintro ⟨_, ⟨outcome, hinsert, rfl⟩, hrows⟩
      exact ⟨outcome, hinsert, hrows⟩
  have hnone : SeenKeys.ofRows schema [] = .ok (.none schema) := rfl
  simp only [hstores, insertsTo_iff, publish_insert_eq_ok]
  constructor
  · rintro ⟨_, ⟨found, typed, hthere, hcolumns, htyped, inserted, declared, seen, hdeclared, hseen, hruns, rfl⟩, rfl⟩
    cases hfound.symm.trans hthere
    rw [hname] at hdeclared hseen hruns ⊢
    cases hfound.symm.trans hdeclared
    rw [hempty, hnone] at hseen
    cases hseen
    rw [hempty, List.nil_append] at hruns ⊢
    rw [tableRows_commit, rowsIn_only_self]
    exact ⟨hcolumns, typed, htyped, hruns⟩
  · rintro ⟨hcolumns, typed, htyped, hruns⟩
    refine ⟨_, ⟨schema, typed, hfound, hcolumns, htyped, rows, schema, .none schema, ?_, ?_, ?_, rfl⟩, ?_⟩
    · rw [hname, hfound]
    · rw [hname, hempty, hnone]
    · rw [hname, hempty, List.nil_append]
      exact hruns
    · rw [hname, tableRows_commit, rowsIn_only_self, hempty, List.nil_append]

/-- An INSERT leaves a counting column of the table without a value. -/
def LeavesToCount (schema : TableSchema) (insertion : Insert) : Prop :=
  ∃ typed, typedRows schema insertion.columns 1 insertion.rows = .ok typed ∧ ∃ row ∈ typed, ¬ schema.Counted row

/-- An INSERT fails on both snapshots, or its table ends with the same rows. -/
def InsertsAlike (database other : Database) (insertion : Insert) : Prop :=
  ∀ rows, database.Stores insertion rows ↔ other.Stores insertion rows

def Refuses (database : Database) (insertion : Insert) : Prop :=
  ∀ rows, ¬ database.Stores insertion rows

theorem checkInsertColumns_rebuilt (schema : TableSchema) (listed : Option (List Text)) :
    checkInsertColumns schema.rebuilt listed = checkInsertColumns schema listed := by
  have hrequire : schema.rebuilt.requireColumn = schema.requireColumn := by
    funext name
    rw [TableSchema.requireColumn, TableSchema.requireColumn, TableSchema.columnNames_rebuilt]
    rfl
  cases listed with
  | none => rfl
  | some columns =>
    rw [checkInsertColumns, checkInsertColumns, hrequire]
    rfl

section
variable (h : Rebuilds database insertion.table schema other) (hcreated : schema.Created)
  (hname : schema.name = insertion.table) (hempty : database.tableRows insertion.table = [])
  (hother : other.tableRows insertion.table = [])
include h hname hempty hother

/-- If the same rows are stored in the table built again, they have been typed so, and nothing was to count. -/
theorem not_leavesToCount_of_stores (hbefore : database.Stores insertion rows) (hafter : other.Stores insertion rows) :
    ¬ LeavesToCount schema insertion := by
  obtain ⟨-, typed, htyped, hruns⟩ := (stores_iff h.before hname hempty).mp hbefore
  obtain ⟨-, typed', htyped', hruns'⟩ := (stores_iff h.after hname hother).mp hafter
  have hsame : rows = typed' := (inserted_eq_iff hruns').mpr fun row _ => counted_rebuilt schema row
  cases htyped.symm.trans (typedRows_of_rebuilt htyped')
  rintro ⟨typed'', htyped'', row, hrow, hnot⟩
  cases htyped.symm.trans htyped''
  exact hnot ((inserted_eq_iff hruns).mp hsame row hrow)

include hcreated

theorem insertsAlike_of_not_leavesToCount (hcount : ¬ LeavesToCount schema insertion) :
    InsertsAlike database other insertion := by
  have hcounted : ∀ typed, typedRows schema insertion.columns 1 insertion.rows = .ok typed →
      ∀ row ∈ typed, schema.Counted row := by
    intro typed htyped row hrow
    by_contra hnot
    exact hcount ⟨typed, htyped, row, hrow, hnot⟩
  intro rows
  rw [stores_iff h.before hname hempty, stores_iff h.after hname hother, checkInsertColumns_rebuilt]
  refine and_congr_right fun _ => ⟨?_, ?_⟩
  · rintro ⟨typed, htyped, hruns⟩
    have hall := hcounted typed htyped
    exact ⟨typed, typedRows_rebuilt hcreated htyped hall, (h.runs_iff hall).mpr hruns⟩
  · rintro ⟨typed, htyped, hruns⟩
    have hbefore := typedRows_of_rebuilt htyped
    exact ⟨typed, hbefore, (h.runs_iff (hcounted typed hbefore)).mp hruns⟩

/-- An INSERT into a table without rows does the same to the table built again, exactly if it leaves nothing to
count or fails on both. -/
theorem insertsAlike_iff : InsertsAlike database other insertion ↔
    ¬ LeavesToCount schema insertion ∨ database.Refuses insertion ∧ other.Refuses insertion := by
  constructor
  · intro halike
    by_cases hcount : LeavesToCount schema insertion
    · have hnever (rows : List Row) (hbefore : database.Stores insertion rows) : False :=
        not_leavesToCount_of_stores h hname hempty hother hbefore ((halike rows).mp hbefore) hcount
      exact .inr ⟨hnever, fun rows hafter => hnever rows ((halike rows).mpr hafter)⟩
    · exact .inl hcount
  · rintro (hcount | ⟨hbefore, hafter⟩)
    · exact insertsAlike_of_not_leavesToCount h hcreated hname hempty hother hcount
    · exact fun rows => iff_of_false (hbefore rows) (hafter rows)

end

end Database

end SnapshotSql
