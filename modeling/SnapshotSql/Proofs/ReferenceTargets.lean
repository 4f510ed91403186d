import SnapshotSql.Proofs.Transitions

/-! # The columns that references refer to

CREATE TABLE takes a reference only if the table it points at has every column that it refers to. No
later statement takes such a column away but one: a CREATE VIEW that replaces a view does not ask who
refers to it, and the view may then lack a column that it had. So a table always has the columns that
references name, and a view has them unless it has been replaced by another one since.
-/
namespace SnapshotSql

theorem columnNames_viewSchema (view : Text) (result : QueryResult) :
    (viewSchema view result).columnNames = result.columns := by
  simp [viewSchema, TableSchema.columnNames, Function.comp_def]

namespace Database

variable {database : Database} {limit : Int} {outcome : Outcome}

/-- The target of a reference has its columns, unless it is a view. -/
def HasReferencedOrView (foreignKey : ForeignKey) (target : TableSchema) : Prop :=
  target.isView = false → HasReferenced foreignKey target

theorem Reachable.pointsAt (h : database.Reachable) : database.PointsAt HasReferencedOrView :=
  h.invariant (PointsAt HasReferencedOrView) nofun fun _ _ hstep =>
    hstep.pointsAt (fun hfound _ => hfound) fun hview htable => absurd hview (by simp [htable])

/-! ## When a column goes missing -/

def AllFound (database : Database) : Prop :=
  database.PointsAt HasReferenced

instance (database : Database) : Decidable database.AllFound :=
  decidable_of_iff (∀ table ∈ database.tableNames, ∀ foreignKey ∈ database.foreignKeys table,
    (database.schemas.get? foreignKey.refTable).any fun target =>
      foreignKey.refColumns.all (target.columnNames.contains ·)) <| by
    rw [← forall_foreignKeys_iff]
    simp [AllFound, PointsAt, HasReferenced, Option.any_eq_true]

theorem allFound_of_createTables {definitions : List CreateTable} (h : database.AllFound)
    (hdefinitions : ∀ definition ∈ definitions, (Statement.createTable definition).WellRead)
    (hcreated : database.createTables definitions = .ok outcome) :
    (outcome.snapshot database).AllFound := by
  have hcreations := creations_of_createTables hdefinitions hcreated
  generalize outcome.snapshot database = last at hcreations
  induction hcreations with
  | refl => exact h
  | tail _ hlast ih =>
    obtain ⟨hdefinition, hnew, hschema, -⟩ := hlast
    exact ih.create (fun hfound => hfound) hdefinition hnew hschema

theorem schemas_of_insert {insertion : Insert} (h : database.insert insertion = .ok outcome) :
    (outcome.snapshot database).schemas = database.schemas := by
  simp only [insert, Check.bind_eq_ok] at h
  obtain ⟨schema, -, _, -, rows, -, ⟨inserted, next⟩, hnext, h⟩ := h
  have hschemas := schemas_of_publish hnext
  dsimp only at h
  split at h <;> cases h <;> exact hschemas

theorem schemas_of_update {change : Update} (h : database.update limit change = .ok outcome) :
    (outcome.snapshot database).schemas = database.schemas := by
  simp only [update, Check.bind_eq_ok] at h
  obtain ⟨schema, -, _, -, changes, -, ⟨count, next⟩, hnext, h⟩ := h
  cases h
  exact schemas_of_publish hnext

theorem schemas_of_delete {deletion : Delete} (h : database.delete limit deletion = .ok outcome) :
    (outcome.snapshot database).schemas = database.schemas := by
  simp only [delete, Check.bind_eq_ok] at h
  obtain ⟨schema, -, ⟨count, next⟩, hnext, h⟩ := h
  cases h
  exact schemas_of_publish hnext

/-- A result has the columns that references to a view ask for. -/
def KeepsReferenced (database : Database) (view : Text) (result : QueryResult) : Prop :=
  ∀ table, ∀ foreignKey ∈ database.foreignKeys table, foreignKey.refTable = view →
    ∀ name ∈ foreignKey.refColumns, name ∈ result.columns

/-- A CREATE VIEW leaves every reference its columns exactly if the new view has those of the old one
that are referred to. -/
theorem allFound_of_createView_iff {definition : CreateView} (hbuilt : database.WellBuilt)
    (h : database.AllFound) (hcreated : database.createView definition = .ok outcome) :
    (outcome.snapshot database).AllFound ↔
      ∀ result, database.select definition.select = .ok result →
        database.KeepsReferenced definition.view result := by
  obtain ⟨hfree, result, hresult, hnext⟩ := of_createView hcreated
  have hforget : (∀ result, database.select definition.select = .ok result →
      database.KeepsReferenced definition.view result) ↔
      database.KeepsReferenced definition.view result := by
    simp [hresult]
  rw [hforget, hnext]
  constructor
  · intro hfound table foreignKey hforeign htarget name hname
    obtain ⟨schema, hschema, hmem⟩ := (mem_foreignKeys ..).mp hforeign
    have hother : table ≠ definition.view := by
      rintro rfl
      rw [(hbuilt.schema _ _ hschema).view (hfree schema hschema)] at hmem
      cases hmem
    have hkept : foreignKey ∈ Database.foreignKeys ⟨definition.view,
        database.schemas.insert definition.view (viewSchema definition.view result),
        database.rows.insert definition.view result.rows⟩ table :=
      (mem_foreignKeys ..).mpr ⟨schema, by rw [OrderedMap.get?_insert, if_neg hother, hschema], hmem⟩
    obtain ⟨target, hthere, hcolumns⟩ := hfound table foreignKey hkept
    rw [htarget, OrderedMap.get?_insert, if_pos rfl] at hthere
    cases hthere
    rw [← columnNames_viewSchema definition.view result]
    exact hcolumns name hname
  · intro hkeeps
    refine h.enter rfl nofun fun table foreignKey hforeign htarget name hname => ?_
    rw [columnNames_viewSchema]
    exact hkeeps table foreignKey hforeign htarget name hname

/-- No statement but a CREATE VIEW takes a column away that a reference refers to. -/
theorem allFound_of_run {statement : Statement} (hstatement : statement.WellRead) (h : database.AllFound)
    (hview : ∀ definition, statement ≠ .createView definition)
    (hrun : database.run limit statement = .ok outcome) : (outcome.snapshot database).AllFound := by
  cases statement with
  | createTable definition =>
    refine allFound_of_createTables h (fun other hmem => ?_) (Check.orFail_eq_ok.mp hrun)
    rw [List.mem_singleton.mp hmem]
    exact hstatement
  | createView definition => exact absurd rfl (hview definition)
  | dropTable drop =>
    rcases of_dropTable (Check.orFail_eq_ok.mp hrun) with hsame | ⟨herased, hfree⟩
    · rw [hsame]
      exact h
    · rw [herased]
      exact h.erase hfree
  | insert insertion => exact h.of_schemas_eq (schemas_of_insert hrun)
  | update change => exact h.of_schemas_eq (schemas_of_update hrun)
  | delete deletion => exact h.of_schemas_eq (schemas_of_delete hrun)
  | select query =>
    obtain ⟨result, -, heq⟩ := Check.map_eq_ok.mp (Check.orFail_eq_ok.mp hrun)
    cases heq
    exact h

/-- Every reference of a reachable snapshot has as many columns as it refers to, and points at a table
that is there and has these columns, or at a view. While all views have them too, the only text after
which one of them goes missing is a CREATE VIEW whose result does not have it, under the name of a view
that is referred to. -/
theorem targets_of_reachable (h : database.Reachable) :
    (∀ table, ∀ foreignKey ∈ database.foreignKeys table,
      foreignKey.columns.length = foreignKey.refColumns.length ∧
        ∃ target, database.schemas.get? foreignKey.refTable = some target ∧
          (target.isView = false → ∀ name ∈ foreignKey.refColumns, name ∈ target.columnNames)) ∧
      ∀ limit sql outcome, database.AllFound → database.execute limit sql = .ok outcome →
        ((outcome.snapshot database).AllFound ↔
          ∀ definition result, RunsAs sql (.createView definition) →
            database.select definition.select = .ok result →
              database.KeepsReferenced definition.view result) := by
  refine ⟨fun table foreignKey hforeign => ⟨?_, h.pointsAt table foreignKey hforeign⟩,
    fun limit sql outcome hfound hexecute => ⟨fun hnext definition result hruns hresult => ?_,
      fun hkeeps => ?_⟩⟩
  · obtain ⟨schema, hschema, hmem⟩ := (mem_foreignKeys ..).mp hforeign
    exact ((h.wellBuilt.schema table schema hschema).paired foreignKey hmem).2
  · rw [execute_of_runsAs hruns] at hexecute
    exact (allFound_of_createView_iff h.wellBuilt hfound (Check.orFail_eq_ok.mp hexecute)).mp hnext
      result hresult
  · rcases of_execute hexecute with hsame | ⟨definitions, hdefinitions, hcreated⟩ | ⟨statement, hruns, hrun⟩
    · rw [hsame]
      exact hfound
    · exact allFound_of_createTables hfound hdefinitions hcreated
    · by_cases hview : ∃ definition, statement = .createView definition
      · obtain ⟨definition, rfl⟩ := hview
        exact (allFound_of_createView_iff h.wellBuilt hfound (Check.orFail_eq_ok.mp hrun)).mpr
          fun result hresult => hkeeps definition result hruns hresult
      · exact allFound_of_run (wellRead_of_parse hruns.parsed) hfound
          (fun definition heq => hview ⟨definition, heq⟩) hrun

/-- A table of goods, a view of their numbers, and orders that refer to the view. -/
def shopTexts : List (Int × Text) :=
  [(64, "CREATE TABLE good(id INT, name TEXT)"), (64, "CREATE VIEW listed AS SELECT id FROM good"),
    (64, "CREATE TABLE orders(id INT, good INT REFERENCES listed(id))")]

def shop : Database :=
  let counting : Column := ⟨"id", .int, false, false, true⟩
  let plain (name : Text) (type : ColumnType) : Column := ⟨name, type, false, false, false⟩
  ⟨"orders",
    .ofList [
      ("good", ⟨"good", [counting, plain "name" .text], ["id"], [], [], .existingId, false⟩),
      ("listed", ⟨"listed", [plain "id" .text], [], [], [], .none, true⟩),
      ("orders", ⟨"orders", [counting, plain "good" .int], ["id"], [],
        [⟨["good"], "listed", ["id"], .restrict, .restrict, none⟩], .existingId, false⟩)],
    .ofList [("good", []), ("listed", []), ("orders", [])]⟩

set_option maxRecDepth 20000 in
theorem shop_reachable : shop.Reachable :=
  ⟨shopTexts, by decide +kernel⟩

def namesText : Text :=
  "CREATE VIEW listed AS SELECT name FROM good"

set_option maxRecDepth 20000 in
theorem targets_of_reachable_shop :
    shop.Reachable ∧ shop.AllFound ∧ ∃ outcome, shop.execute 64 namesText = .ok outcome ∧
      ¬ (outcome.snapshot shop).AllFound := by
  have hfound : shop.AllFound := by decide +kernel
  obtain ⟨outcome, hexecute⟩ : ∃ outcome, shop.execute 64 namesText = .ok outcome :=
    Check.exists_of_isOk (by decide +kernel)
  refine ⟨shop_reachable, hfound, outcome, hexecute, fun hnext => ?_⟩
  let query : Select := ⟨[.column "name" "name"], "good", none, false, none, [], none, [], none, 0⟩
  have hruns : RunsAs namesText (.createView ⟨"listed", query⟩) :=
    ⟨by decide +kernel, by decide +kernel, by decide +kernel⟩
  have hresult : shop.select query = .ok ⟨["name"], []⟩ := by
    decide +kernel
  have hkeeps := ((targets_of_reachable shop_reachable).2 64 namesText outcome hfound hexecute).mp hnext _ _
    hruns hresult
  have hid : ("id" : Text) ∈ (["name"] : List Text) :=
    hkeeps "orders" ⟨["good"], "listed", ["id"], .restrict, .restrict, none⟩ (by decide +kernel) rfl
      "id" (by decide)
  exact absurd hid (by decide)

set_option maxRecDepth 20000 in
/-- A reference may lose the column that it refers to. -/
theorem not_every_reference_found :
    ¬ ∀ database : Database, database.Reachable → ∀ table, ∀ foreignKey ∈ database.foreignKeys table,
      (∃ target, database.schemas.get? foreignKey.refTable = some target ∧
        ∀ name ∈ foreignKey.refColumns, name ∈ target.columnNames) ∧
      foreignKey.columns.length = foreignKey.refColumns.length := by
  intro hall
  have hfound : (shop.afterAll [(64, namesText)]).AllFound := fun table foreignKey hforeign =>
    (hall _ (shop_reachable.afterAll [(64, namesText)]) table foreignKey hforeign).1
  exact absurd hfound (by decide +kernel)

end Database

end SnapshotSql
