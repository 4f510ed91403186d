import SnapshotSql.Proofs.PaddedRows
import SnapshotSql.Proofs.SelectionReadings

/-! # A missing column is as good as a null

A snapshot can be filled: every row gets a null under each column of its table that it lacks. Whatever
text is executed, the filled snapshot fails with the same error or gives the same result, and the next
snapshots are the same again once they are filled. The snapshots in between are padded, not filled: a row
that is cast or changed keeps the nulls that it has and gets no others.
-/
namespace SnapshotSql

open Integrity

namespace OrderedMap

variable {α : Type}

def mapValues (change : Text → α → α) (map : OrderedMap α) : OrderedMap α :=
  ⟨map.entries.map fun entry => (entry.1, change entry.1 entry.2), by
    simpa [List.map_map, Function.comp_def] using map.nodup⟩

theorem names_mapValues (change : Text → α → α) (map : OrderedMap α) :
    (map.mapValues change).names = map.names := by
  simp [mapValues, names, Function.comp_def]

theorem get?_mapValues (change : Text → α → α) (map : OrderedMap α) (name : Text) :
    (map.mapValues change).get? name = (map.get? name).map (change name) := by
  simp only [get?, mapValues]
  induction map.entries with
  | nil => rfl
  | cons entry entries ih =>
    rw [List.map_cons, lookup_cons_eq, lookup_cons_eq, ih]
    split
    · next heq => rw [heq, Option.map_some]
    · rfl

end OrderedMap

namespace Database

/-! ## Padded snapshots -/

def columnsOf (database : Database) (table : Text) : List Text :=
  match database.schemas.get? table with
  | some schema => schema.columnNames
  | none => []

/-- No column of any table has a point in its name. -/
def PlainNames (database : Database) : Prop :=
  ∀ table schema, database.schemas.get? table = some schema → ∀ name ∈ schema.columnNames, .char '.' ∉ name

instance (database : Database) : Decidable database.PlainNames :=
  decidable_of_iff
    (∀ entry ∈ database.schemas.entries, ∀ name ∈ entry.2.columnNames, .char '.' ∉ name) <| by
      simp only [PlainNames, Prod.forall, OrderedMap.mem_entries_iff]

def PaddedIn (database : Database) (table : Text) (row padded : Row) : Prop :=
  row.Padded (database.columnsOf table) padded

/-- The second snapshot has the rows of the first one with nulls in place of some missing columns. -/
def Padded (database padded : Database) : Prop :=
  Beside database.PaddedIn database padded

variable {database padded : Database} {table : Text} {limit : Int}

theorem congruence_paddedIn (database : Database) (table : Text) : Row.Congruence (database.PaddedIn table) :=
  Row.congruence_padded _

theorem PlainNames.columnsOf (h : database.PlainNames) (table : Text) :
    ∀ name ∈ database.columnsOf table, .char '.' ∉ name := by
  unfold Database.columnsOf
  split
  · next schema hschema => exact h table schema hschema
  · exact nofun

theorem Padded.readsAlike (h : database.Padded padded) (hplain : database.PlainNames) (table : Text) :
    List.Forall₂ Row.ReadsAlike (database.tableRows table) (padded.tableRows table) :=
  (h.rows table).imp fun _ _ hrow => hrow.readsAlike (hplain.columnsOf table)

/-- A table that is left alone is padded as it was. -/
theorem Padded.rows_of_same {next next' : Database} (h : database.Padded padded)
    (hschema : next.schemas.get? table = database.schemas.get? table)
    (hrows : next.tableRows table = database.tableRows table)
    (hrows' : next'.tableRows table = padded.tableRows table) :
    List.Forall₂ (next.PaddedIn table) (next.tableRows table) (next'.tableRows table) := by
  have hcolumns : next.columnsOf table = database.columnsOf table := by
    rw [Database.columnsOf, Database.columnsOf, hschema]
  unfold PaddedIn
  rw [hcolumns, hrows, hrows']
  exact h.rows table

/-- A table with given rows goes into both snapshots. -/
theorem Padded.enter (h : database.Padded padded) (active name : Text) (schema : TableSchema)
    (rows : List Row) :
    Padded ⟨active, database.schemas.insert name schema, database.rows.insert name rows⟩
      ⟨active, padded.schemas.insert name schema, padded.rows.insert name rows⟩ := by
  refine ⟨rfl, by rw [h.schemas], by rw [OrderedMap.names_insert, OrderedMap.names_insert, h.tables],
    fun table => ?_⟩
  by_cases heq : table = name
  · simp only [tableRows, heq, OrderedMap.get?_insert, if_true, Option.getD_some, List.forall₂_same]
    exact fun row _ => Row.padded_refl _ row
  · exact h.rows_of_same (by simp [heq]) (by simp [tableRows, heq]) (by simp [tableRows, heq])

theorem Padded.addTables (h : database.Padded padded) (created : List TableSchema) :
    (created.foldl addTable database).Padded (created.foldl addTable padded) := by
  induction created generalizing database padded with
  | nil => exact h
  | cons schema created ih => exact ih (h.enter schema.name schema.name schema [])

theorem Padded.eraseTable (h : database.Padded padded) (table : Text) :
    (database.eraseTable table).Padded (padded.eraseTable table) := by
  refine ⟨by simp only [Database.eraseTable, h.active, h.schemas],
    by simp only [Database.eraseTable, h.schemas], ?_, fun other => ?_⟩
  · simp only [Database.eraseTable, OrderedMap.names_erase, h.tables]
  · by_cases heq : other = table
    · simp [tableRows, Database.eraseTable, OrderedMap.get?_erase, heq]
    · exact h.rows_of_same (by simp [Database.eraseTable, OrderedMap.get?_erase, heq])
        (by simp [tableRows, Database.eraseTable, OrderedMap.get?_erase, heq])
        (by simp [tableRows, Database.eraseTable, OrderedMap.get?_erase, heq])

/-! ## Statements -/

/-- The same result, and next snapshots of which one is padded again. -/
def Answered (database padded : Database) (outcome outcome' : Outcome) : Prop :=
  outcome'.result = outcome.result ∧ (outcome.snapshot database).Padded (outcome'.snapshot padded)

theorem Padded.newSchemas_eq (h : database.Padded padded) (known : OrderedMap TableSchema)
    (definitions : List CreateTable) : padded.newSchemas known definitions = database.newSchemas known definitions := by
  induction definitions generalizing known with
  | nil => rfl
  | cons definition definitions ih => simp only [newSchemas, h.schemas, ih]

theorem Padded.agree_createTables (h : database.Padded padded) (definitions : List CreateTable) :
    Check.Agree (Answered database padded) (database.createTables definitions)
      (padded.createTables definitions) := by
  unfold createTables
  rw [h.newSchemas_eq, h.schemas, h.active]
  refine (Check.agree_of_eq rfl).bind fun created _ heq => ?_
  subst heq
  split
  · exact .ok ⟨rfl, h⟩
  · have hadded := h.addTables created
    exact .ok ⟨congrArg (createdMessage created.length) hadded.active, hadded⟩

theorem Padded.select_eq (h : database.Padded padded) (hplain : database.PlainNames) (query : Select) :
    padded.select query = database.select query := by
  unfold select
  rw [h.requireTable]
  refine bind_congr fun schema => bind_congr fun _ => ?_
  rw [query.resultOf_congr schema (h.readsAlike hplain query.table)]

theorem Padded.agree_createView (h : database.Padded padded) (hplain : database.PlainNames)
    (definition : CreateView) :
    Check.Agree (Answered database padded) (database.createView definition) (padded.createView definition) := by
  unfold createView
  rw [h.select_eq hplain, h.schemas]
  dsimp only
  split
  · exact .error _
  · refine (Check.agree_of_eq rfl).bind fun result _ heq => ?_
    subst heq
    have henter := h.enter definition.view definition.view (viewSchema definition.view result) result.rows
    rw [h.schemas] at henter
    exact .ok ⟨rfl, henter⟩

theorem Padded.agree_dropTable (h : database.Padded padded) (drop : DropTable) :
    Check.Agree (Answered database padded) (database.dropTable drop) (padded.dropTable drop) := by
  unfold dropTable
  dsimp only
  rw [h.schemas, h.referencing]
  split
  · split
    · exact .ok ⟨rfl, h⟩
    · exact .error _
  · split
    · exact .ok ⟨rfl, h.eraseTable drop.table⟩
    · exact .error _

theorem Padded.agree_publish {α α' : Type} {answers : α → α' → Prop} {write : Staging α} {write' : Staging α'}
    (h : database.Padded padded)
    (hwrite : Staging.Agree (Staging.Beside database.PaddedIn database padded) answers write write') :
    Check.Agree (fun result result' => answers result.1 result'.1 ∧ result.2.Padded result'.2)
      (database.publish write) (padded.publish write') :=
  publish_agree hwrite ⟨rfl, h.rows⟩ fun _ _ hstaged => hstaged.commit h

theorem Padded.agree_insert (h : database.Padded padded) (insertion : Insert) :
    Check.Agree (Answered database padded) (database.insert insertion) (padded.insert insertion) := by
  unfold insert
  rw [h.requireTable]
  refine (Check.agree_of_eq rfl).bind fun schema _ heq => ?_
  subst heq
  refine (Check.agree_of_eq rfl).bind fun _ _ _ => ?_
  refine (Check.agree_of_eq rfl).bind fun rows _ heq => ?_
  subst heq
  refine (h.agree_publish (Integrity.agree_insert (congruence_paddedIn database) h rows)).bind ?_
  rintro ⟨inserted, next⟩ ⟨_, next'⟩ ⟨rfl, hnext⟩
  dsimp only
  split <;> exact .ok ⟨rfl, hnext⟩

theorem agree_changesFrom (schema : TableSchema) (update : Update) (position : Nat) {columns : List Text}
    (hplain : ∀ name ∈ columns, .char '.' ∉ name) {rows rows' : List Row}
    (h : List.Forall₂ (Row.Padded columns) rows rows') :
    Check.Agree (List.Forall₂ (Change.Beside (Row.Padded columns))) (changesFrom schema update position rows)
      (changesFrom schema update position rows') := by
  induction h generalizing position with
  | nil => exact .ok .nil
  | @cons row row' _ _ hrow _ ih =>
    unfold changesFrom
    simp only [Condition.holds_congr (hrow.readsAlike hplain)]
    split
    · refine (hrow.agree_assign hplain schema update.assignments).bind fun after after' hafter => ?_
      exact (ih _).bind fun rest rest' hrest => .ok (.cons ⟨rfl, hrow, hafter⟩ hrest)
    · exact ih _

theorem Padded.agree_update (h : database.Padded padded) (hplain : database.PlainNames) (change : Update) :
    Check.Agree (Answered database padded) (database.update limit change) (padded.update limit change) := by
  unfold update
  rw [h.requireTable]
  refine (Check.agree_of_eq rfl).bind fun schema _ heq => ?_
  subst heq
  refine (Check.agree_of_eq rfl).bind fun _ _ _ => ?_
  refine (agree_changesFrom schema change 0 (hplain.columnsOf _) (h.rows schema.name)).bind
    fun changes changes' hchanges => ?_
  refine (h.agree_publish (Integrity.agree_update (congruence_paddedIn database) h hchanges)).bind ?_
  rintro ⟨count, next⟩ ⟨_, next'⟩ ⟨rfl, hnext⟩
  exact .ok ⟨rfl, hnext⟩

theorem Padded.agree_delete (h : database.Padded padded) (hplain : database.PlainNames) (deletion : Delete) :
    Check.Agree (Answered database padded) (database.delete limit deletion)
      (padded.delete limit deletion) := by
  unfold delete
  rw [h.requireTable]
  refine (Check.agree_of_eq rfl).bind fun schema _ heq => ?_
  subst heq
  have hpositions : deletedPositions deletion (database.tableRows schema.name) =
      deletedPositions deletion (padded.tableRows schema.name) := by
    refine map_eq_of_forall₂ (fun _ _ hentry => hentry.2)
      (forall₂_filter _ _ ?_ (forall₂_zipIdx (h.readsAlike hplain schema.name) 0))
    rintro ⟨row, position⟩ ⟨row', _⟩ ⟨hrow, rfl⟩
    simp only [Condition.holds_congr hrow]
  rw [hpositions]
  refine (h.agree_publish (Integrity.agree_delete (congruence_paddedIn database) h _)).bind ?_
  rintro ⟨count, next⟩ ⟨_, next'⟩ ⟨rfl, hnext⟩
  exact .ok ⟨rfl, hnext⟩

theorem Padded.agree_run (h : database.Padded padded) (hplain : database.PlainNames) (statement : Statement) :
    Check.Agree (Answered database padded) (database.run limit statement) (padded.run limit statement) := by
  cases statement with
  | createTable definition => exact (h.agree_createTables [definition]).orFail
  | createView definition => exact (h.agree_createView hplain definition).orFail
  | dropTable drop => exact (h.agree_dropTable drop).orFail
  | insert insertion => exact h.agree_insert insertion
  | update change => exact h.agree_update hplain change
  | delete deletion => exact h.agree_delete hplain deletion
  | select query =>
    simp only [run, h.select_eq hplain]
    cases database.select query with
    | error error => exact .error _
    | ok result => exact .ok ⟨rfl, h⟩

theorem Padded.agree_execute (h : database.Padded padded) (hplain : database.PlainNames) (limit : Int)
    (sql : Text) :
    Check.Agree (Answered database padded) (database.execute limit sql) (padded.execute limit sql) := by
  unfold execute runText
  dsimp only
  split
  · exact .ok ⟨rfl, h⟩
  · split
    · refine (Check.agree_of_eq rfl).bind fun statements _ heq => ?_
      subst heq
      refine (Check.agree_of_eq rfl).bind fun definitions _ heq => ?_
      subst heq
      exact (h.agree_createTables definitions).orFail
    · refine (Check.agree_of_eq rfl).bind fun statement _ heq => ?_
      subst heq
      exact h.agree_run hplain statement

/-! ## Filled snapshots -/

def filled (database : Database) : Database :=
  { database with
    rows := database.rows.mapValues fun table rows => rows.map (Row.filled (database.columnsOf table)) }

/-- Snapshots that differ at most in the order in which rows list their columns. -/
structure Same (database other : Database) : Prop where
  active : other.active = database.active
  schemas : other.schemas = database.schemas
  tables : other.rows.names = database.rows.names
  rows : ∀ table, List.Forall₂ Row.Same (database.tableRows table) (other.tableRows table)

theorem tableRows_filled (database : Database) (table : Text) :
    database.filled.tableRows table = (database.tableRows table).map (Row.filled (database.columnsOf table)) := by
  simp only [filled, tableRows, OrderedMap.get?_mapValues]
  cases database.rows.get? table <;> rfl

theorem padded_filled (database : Database) : database.Padded database.filled := by
  refine ⟨rfl, rfl, OrderedMap.names_mapValues .., fun table => ?_⟩
  rw [tableRows_filled, List.forall₂_map_right_iff, List.forall₂_same]
  exact fun row _ => Row.padded_filled _ row

theorem Padded.filled_same (h : database.Padded padded) : database.filled.Same padded.filled := by
  refine ⟨h.active, h.schemas, ?_, fun table => ?_⟩
  · exact (OrderedMap.names_mapValues ..).trans (h.tables.trans (OrderedMap.names_mapValues ..).symm)
  · have hcolumns : padded.columnsOf table = database.columnsOf table := by
      rw [Database.columnsOf, Database.columnsOf, h.schemas]
    rw [tableRows_filled, tableRows_filled, hcolumns]
    exact List.rel_map (fun _ _ hrow => Row.Padded.filled_same hrow) (h.rows table)

/-- If no column has a point in its name, a text fails on a snapshot and on the filled one with the same
error, or it gives the same result on both and leaves snapshots that are the same when they are filled. -/
theorem execute_filled (hplain : database.PlainNames) (limit : Int) (sql : Text) :
    (∃ failure, database.execute limit sql = .error failure ∧
        database.filled.execute limit sql = .error failure) ∨
      ∃ outcome outcome', database.execute limit sql = .ok outcome ∧
        database.filled.execute limit sql = .ok outcome' ∧ outcome'.result = outcome.result ∧
          (outcome.snapshot database).filled.Same (outcome'.snapshot database.filled).filled := by
  rcases (database.padded_filled.agree_execute hplain limit sql).cases with
    herror | ⟨outcome, outcome', hrun, hrun', hresult, hnext⟩
  · exact Or.inl herror
  · exact Or.inr ⟨outcome, outcome', hrun, hrun', hresult, hnext.filled_same⟩

def sparse : Database :=
  ⟨"t", .ofList [("t", ⟨"t", [⟨"id", .int, false, false, false⟩, ⟨"name", .text, false, false, false⟩],
    ["id"], [], [], .column, false⟩)], .ofList [("t", [.ofList [("id", .int 1)]])]⟩

theorem execute_filled_sparse : sparse.PlainNames ∧ sparse.filled ≠ sparse ∧
    ∃ outcome outcome', sparse.execute 64 "UPDATE t SET id = 2 WHERE name IS NULL" = .ok outcome ∧
      sparse.filled.execute 64 "UPDATE t SET id = 2 WHERE name IS NULL" = .ok outcome' ∧
        outcome'.result = outcome.result ∧
          (outcome.snapshot sparse).filled.Same (outcome'.snapshot sparse.filled).filled := by
  have hplain : sparse.PlainNames := by decide
  have hok : (sparse.execute 64 "UPDATE t SET id = 2 WHERE name IS NULL").isOk = true := by decide +kernel
  refine ⟨hplain, by decide, ?_⟩
  rcases execute_filled hplain 64 "UPDATE t SET id = 2 WHERE name IS NULL" with ⟨failure, herror, -⟩ | h
  · rw [herror] at hok
    cases hok
  · exact h

end Database

end SnapshotSql
