import SnapshotSql.Proofs.BareTexts
import SnapshotSql.Proofs.CountedColumns
import SnapshotSql.Proofs.CreateBatches
import SnapshotSql.Proofs.DropOrder

/-! # Tables that are dropped and created from their statements

The statement of a table can be executed after the table has been dropped, unless the table is called IF or
refers to columns that views no longer have. The table is then built again, and an INSERT into it does what it
did before unless it leaves something to count: the statement does not say which columns count.
-/
namespace SnapshotSql

open SourceText

/-! ## The text of a statement -/

theorem bare_type (type : ColumnType) : Bare type.sql := by
  have hnames (name : TypeName) : Bare name.sql := by cases name <;> decide
  have hplain := hnames type.typeName
  have hparens : Bare (Text.ofString "DECIMAL(") ∧ Bare (Text.ofString "CHAR(") ∧ Bare (Text.ofString "VARCHAR(") ∧
      Bare (Text.ofString ",") ∧ Bare (Text.ofString ")") := by decide
  cases type with
  | decimal precision scale => simp [ColumnType.sql, hparens, bare_count]
  | char length => simp [ColumnType.sql, hparens, bare_count]
  | varchar length => simp [ColumnType.sql, hparens, bare_count]
  | _ => exact hplain

theorem bare_names {names : List Text} (h : ∀ name ∈ names, IsName name) :
    Bare (List.intercalate (Text.ofString ", ") names) :=
  bare_intercalate (by decide) fun name hname => bare_name (h name hname)

theorem bare_listed {word : String} (hword : Bare (Text.ofString word)) {names : List Text}
    (h : ∀ name ∈ names, IsName name) : Bare (TableSchema.sql.listed (Text.ofString word) names) := by
  have hparens : Bare (Text.ofString " (") ∧ Bare (Text.ofString ")") := by decide
  simp [TableSchema.sql.listed, hword, hparens, bare_names h]

theorem bare_action {event : String} (hevent : IsCapital event) (action : ReferentialAction) :
    Bare (ForeignKey.actionSql (Text.ofString event) action) := by
  have hwords : Bare (Text.ofString " ON ") ∧ Bare (Text.ofString " ") := by decide
  have haction : Bare action.sql := by cases action <;> decide
  unfold ForeignKey.actionSql
  split
  · exact nofun
  · simp [hwords, haction, bare_capital hevent]

theorem bare_element {element : TableElement} (h : element.Named) : Bare element.sql := by
  have hevents : IsCapital "DELETE" ∧ IsCapital "UPDATE" := by decide
  cases element with
  | column column =>
    have hnull : Bare (Text.ofString " ") ∧ Bare (Text.ofString (if column.notNull then " NOT NULL" else "")) := by
      cases column.notNull <;> decide
    simp [TableElement.sql, Column.sql, bare_name h, bare_type, hnull]
  | primaryKey names => exact bare_listed (by decide) h
  | unique names => exact bare_listed (by decide) h
  | reference foreignKey =>
    obtain ⟨hcolumns, htable, hrefColumns⟩ := h
    have hwords : Bare (Text.ofString "FOREIGN KEY (") ∧ Bare (Text.ofString ") REFERENCES ") ∧
        Bare (Text.ofString "(") ∧ Bare (Text.ofString ")") := by decide
    simp [TableElement.sql, ForeignKey.sql, hwords, bare_names hcolumns, bare_name htable, bare_names hrefColumns,
      bare_action hevents.1, bare_action hevents.2]

theorem bare_body {schema : TableSchema} (hname : IsName schema.name)
    (helements : ∀ element ∈ schema.elements, element.Named) : Bare schema.body := by
  have hwords : Bare (Text.ofString "CREATE TABLE ") ∧ Bare (Text.ofString " (\n") ∧ Bare (Text.ofString "  ") ∧
      Bare (Text.ofString ",\n") ∧ Bare (Text.ofString "\n)") := by decide
  have hlines : Bare (List.intercalate (Text.ofString ",\n") (schema.elements.map TableElement.line)) := by
    apply bare_intercalate hwords.2.2.2.1
    refine List.forall_mem_map.mpr fun element hmem => ?_
    simp [TableElement.line, hwords, bare_element (helements element hmem)]
  simp [TableSchema.body, hwords, bare_name hname, hlines]

namespace Database

variable {database : Database} {limit : Int} {table : Text} {schema : TableSchema} {outcome : Outcome}

/-- The statement of a table is executed as a batch of the one definition that its text is read as. -/
theorem execute_sql_eq_ok (h : schema.Describable) :
    database.execute limit schema.sql = .ok outcome ↔
      ∃ definition, parse schema.body = .ok (.createTable definition) ∧
        database.createTables [definition] = .ok outcome := by
  have hbare := bare_body h.name h.named
  have hkept : Kept schema.sql := by
    rw [schema.sql_eq]
    exact hbare.kept.append (kept_char (by decide))
  have hkind : kind? schema.sql = some .createTable := by
    rw [schema.sql_eq, TableSchema.body]
    simp only [List.append_assoc]
    exact kind?_createTable _
  have hcut : statements schema.sql = [schema.body] := by
    rw [schema.sql_eq]
    exact statements_terminated hbare (solid_body schema)
  have hvisible : schema.sql.isEmpty = false := by simpa using (solid_sql schema).ne_nil
  have hrun : database.execute limit schema.sql = (do
      let statements ← [schema.body].mapM parse
      let definitions ← orFail (onlyDefinitions statements)
      orFail (database.createTables definitions)) := by
    simp only [execute, hkept.withoutComments, runText, (solid_sql schema).trim, hvisible, hkind, hcut,
      Bool.false_eq_true, if_false, if_true]
  rw [hrun, List.mapM_cons, List.mapM_nil]
  simp only [Check.bind_eq_ok, Check.pure_eq_ok, Check.orFail_eq_ok]
  constructor
  · rintro ⟨_, ⟨statement, hread, _, rfl, rfl⟩, definitions, hdefinitions, hcreated⟩
    cases statement with
    | createTable definition =>
      cases hdefinitions
      exact ⟨definition, hread, hcreated⟩
    | _ => cases hdefinitions
  · rintro ⟨definition, hread, hcreated⟩
    exact ⟨_, ⟨_, hread, _, rfl, rfl⟩, [definition], rfl, hcreated⟩

/-! ## Dropping and creating -/

/-- The snapshot after a table has been dropped and its statement has been executed, if both succeed. -/
def Regenerates (database : Database) (limit : Int) (table : Text) (next : Database) : Prop :=
  ∃ schema dropped created, database.schemas.get? table = some schema ∧
    database.run limit (.dropTable ⟨table, false⟩) = .ok dropped ∧
    (dropped.snapshot database).execute limit schema.sql = .ok created ∧
    created.snapshot (dropped.snapshot database) = next

section
variable (h : database.Reachable) (hfound : database.schemas.get? table = some schema)
  (htable : schema.isView = false)
include h hfound htable

/-- If the definition of a table can be built where the table has been dropped, its references find their
columns. -/
theorem Reachable.findsReferenced_of_buildSchema {other : TableSchema}
    (hbuilt : buildSchema (database.eraseTable table).schemas schema.definition = .ok other) :
    database.FindsReferenced schema := by
  obtain ⟨rfl, -⟩ := h.tablesCreated table schema hfound htable
  intro foreignKey hmem
  obtain ⟨target, htarget, hthere⟩ :=
    h.pointsAt schema.name foreignKey ((mem_foreignKeys ..).mpr ⟨schema, hfound, hmem⟩)
  refine ⟨target, htarget, ?_⟩
  by_cases hview : target.isView = true
  · have hother : foreignKey.refTable ≠ schema.name := by
      intro hsame
      rw [hsame, hfound] at htarget
      cases htarget
      rw [htable] at hview
      cases hview
    have hspec := buildSchema_eq_ok.mp hbuilt
    have hlisted : foreignKey.unnamed ∈ other.foreignKeys := by
      rw [hspec.foreignKeys]
      exact List.mem_map_of_mem hmem
    obtain ⟨found, hget, hcolumns⟩ := (hspec.allowed _ hlisted).target
    have hname : other.name = schema.name := hspec.name
    change (OrderedMap.insert _ other.name other).get? foreignKey.refTable = some found at hget
    rw [hname, OrderedMap.get?_insert, if_neg hother, eraseTable, OrderedMap.get?_erase, if_neg hother, htarget] at hget
    cases hget
    exact hcolumns
  · exact hthere (by simpa using hview)

/-- A table that no other one refers to is regenerated unless it is called IF or a reference to a view has lost a
column. -/
theorem Reachable.regenerates_iff (hfree : ∀ child, ∀ foreignKey ∈ database.foreignKeys child,
    foreignKey.refTable = table → child = table) {next : Database} :
    database.Regenerates limit table next ↔ (¬ schema.CalledIf ∧ database.FindsReferenced schema) ∧
      next = (database.eraseTable table).addTable schema.rebuilt := by
  obtain ⟨hname, hcreated⟩ := h.tablesCreated table schema hfound htable
  have hdescribable := hcreated.describable
  obtain ⟨result, hdrop⟩ := run_dropTable limit false (mem_tableNames.mpr ⟨schema, hfound⟩) hfree
  have hgone : ∀ other, (database.eraseTable table).schemas.get? other =
      if other = table then none else database.schemas.get? other := fun other => OrderedMap.get?_erase ..
  have hnew : (database.eraseTable table).schemas.contains schema.definition.table = false := by
    have hdefined : schema.definition.table = table := hname
    rw [hdefined, OrderedMap.contains, hgone, if_pos rfl]
    rfl
  have hrebuilt (hreferenced : database.FindsReferenced schema) :
      buildSchema (database.eraseTable table).schemas schema.definition = .ok schema.rebuilt :=
    h.buildSchema_definition hfound htable hreferenced fun other hother => by rw [hgone, if_neg hother]
  have hcreates : (∃ created, (database.eraseTable table).createTables [schema.definition] = .ok created ∧
      created.snapshot (database.eraseTable table) = next) ↔
      ∃ other, buildSchema (database.eraseTable table).schemas schema.definition = .ok other ∧
        next = (database.eraseTable table).addTable other := by
    have hrun : (∃ created, (database.eraseTable table).run limit (.createTable schema.definition) = .ok created ∧
        created.snapshot (database.eraseTable table) = next) ↔ _ := run_createTable_eq_ok
    simpa [run, hnew] using hrun
  constructor
  · rintro ⟨found, dropped, created, hthere, hdropped, hexecuted, hnext⟩
    cases hfound.symm.trans hthere
    cases hdrop.symm.trans hdropped
    obtain ⟨definition, hread, hcreate⟩ := (execute_sql_eq_ok hdescribable).mp hexecuted
    have hword : ¬ schema.CalledIf := by
      intro hif
      have hname : (Lexeme.name schema.name).isWord ["IF"] = true := by
        by_contra hnot
        exact TableSchema.isWord_name_iff.mp (eq_false_of_ne_true hnot) hif
      exact parse_body_ne_ok hdescribable.name hname hdescribable.named _ hread
    cases (hdescribable.parse_sql hword).2.symm.trans hread
    obtain ⟨other, hother, rfl⟩ := hcreates.mp ⟨created, hcreate, hnext⟩
    have hreferenced := h.findsReferenced_of_buildSchema hfound htable hother
    cases (hrebuilt hreferenced).symm.trans hother
    exact ⟨⟨hword, hreferenced⟩, rfl⟩
  · rintro ⟨⟨hword, hreferenced⟩, hnext⟩
    obtain ⟨created, hcreate, hsnapshot⟩ := hcreates.mpr ⟨schema.rebuilt, hrebuilt hreferenced, hnext⟩
    refine ⟨schema, _, created, hfound, hdrop, ?_, hsnapshot⟩
    exact (execute_sql_eq_ok hdescribable).mpr ⟨schema.definition, (hdescribable.parse_sql hword).2, hcreate⟩

end

/-- The table is built again, and nothing else has changed. -/
theorem rebuilds_eraseTable (hfound : database.schemas.get? table = some schema) (hname : schema.name = table) :
    Integrity.Rebuilds database table schema ((database.eraseTable table).addTable schema.rebuilt) := by
  have hrebuilt : schema.rebuilt.name = table := hname
  refine ⟨hfound, ?_, fun other hother => ?_⟩
  · rw [addTable, OrderedMap.get?_insert, if_pos hrebuilt.symm]
  · simp only [tableRows, addTable, eraseTable, OrderedMap.get?_insert, OrderedMap.get?_erase, hrebuilt, hother, if_false]

theorem tableRows_addTable_self (database : Database) (schema : TableSchema) :
    (database.addTable schema).tableRows schema.name = [] := by
  simp [tableRows, addTable]

/-- A table without rows that no other one refers to can be dropped and created from its statement, exactly if it
is not called IF and its references find their columns. An INSERT into it then fails as it does before or stores
the same rows, exactly if it has a value in every counting column or fails on both. -/
theorem inserts_after_regeneration (h : database.Reachable) (hfound : database.schemas.get? table = some schema)
    (htable : schema.isView = false) (hempty : database.tableRows table = [])
    (hfree : ∀ child, ∀ foreignKey ∈ database.foreignKeys child, foreignKey.refTable = table → child = table)
    (limit : Int) :
    ((∃ next, database.Regenerates limit table next) ↔ ¬ schema.CalledIf ∧ database.FindsReferenced schema) ∧
      ∀ next, database.Regenerates limit table next → ∀ insertion : Insert, insertion.table = table →
        (InsertsAlike database next insertion ↔
          ¬ LeavesToCount schema insertion ∨ database.Refuses insertion ∧ next.Refuses insertion) := by
  obtain ⟨hname, hcreated⟩ := h.tablesCreated table schema hfound htable
  refine ⟨⟨?_, ?_⟩, ?_⟩
  · rintro ⟨next, hnext⟩
    exact ((h.regenerates_iff hfound htable hfree).mp hnext).1
  · intro hcan
    exact ⟨_, (h.regenerates_iff hfound htable hfree).mpr ⟨hcan, rfl⟩⟩
  · rintro next hnext insertion rfl
    obtain ⟨-, rfl⟩ := (h.regenerates_iff hfound htable hfree).mp hnext
    have hrows := tableRows_addTable_self (database.eraseTable insertion.table) schema.rebuilt
    have hrebuilt : schema.rebuilt.name = insertion.table := hname
    rw [hrebuilt] at hrows
    exact insertsAlike_iff (rebuilds_eraseTable hfound hname) hcreated hname hempty hrows

/-! ## A table that counts -/

def ticketSchema : TableSchema :=
  ⟨"ticket", [⟨"number", .int, false, false, true⟩, ⟨"title", .text, false, false, false⟩], ["number"], [], [],
    .column, false⟩

def tickets : Database :=
  ⟨"ticket", .ofList [("ticket", ticketSchema)], .ofList [("ticket", [])]⟩

set_option maxRecDepth 20000 in
theorem tickets_reachable : tickets.Reachable :=
  ⟨[(64, "CREATE TABLE ticket(number INT AUTO_INCREMENT PRIMARY KEY, title TEXT)")], by decide +kernel⟩

theorem tickets_free : ∀ child, ∀ foreignKey ∈ tickets.foreignKeys child, foreignKey.refTable = "ticket" →
    child = "ticket" :=
  forall_foreignKeys_iff.mpr (by decide)

def numbered : Insert :=
  ⟨"ticket", none, [[.int 7, .text "lost"]]⟩

def unnumbered : Insert :=
  ⟨"ticket", some ["title"], [[.text "lost"]]⟩

theorem not_leavesToCount_numbered : ¬ LeavesToCount ticketSchema numbered := by
  have htyped : typedRows ticketSchema numbered.columns 1 numbered.rows =
      .ok [.ofList [("number", .int 7), ("title", .text "lost")]] := by decide +kernel
  rintro ⟨typed, hrows, row, hrow, hnot⟩
  cases htyped.symm.trans hrows
  rw [List.mem_singleton.mp hrow] at hnot
  exact hnot (by decide +kernel)

theorem inserts_after_regeneration_tickets : tickets.Reachable ∧ tickets.schemas.get? "ticket" = some ticketSchema ∧
    ticketSchema.isView = false ∧ tickets.tableRows "ticket" = [] ∧ ∃ next, tickets.Regenerates 64 "ticket" next ∧
      InsertsAlike tickets next numbered ∧ ¬ InsertsAlike tickets next unnumbered := by
  have hfound : tickets.schemas.get? "ticket" = some ticketSchema := by decide +kernel
  have hempty : tickets.tableRows "ticket" = [] := by decide +kernel
  obtain ⟨hcan, halike⟩ := inserts_after_regeneration tickets_reachable hfound rfl hempty tickets_free 64
  obtain ⟨next, hnext⟩ := hcan.mpr ⟨by decide +kernel, nofun⟩
  refine ⟨tickets_reachable, hfound, rfl, hempty, next, hnext, ?_, ?_⟩
  · exact (halike next hnext numbered rfl).mpr (.inl not_leavesToCount_numbered)
  · intro hboth
    obtain ⟨outcome, hstored⟩ : ∃ outcome, tickets.insert unnumbered = .ok outcome :=
      Check.exists_of_isOk (by decide +kernel)
    rcases (halike next hnext unnumbered rfl).mp hboth with hcounted | ⟨hrefused, -⟩
    · refine hcounted ⟨[.ofList [("title", .text "lost")]], by decide +kernel, _, List.mem_singleton_self _, ?_⟩
      decide +kernel
    · exact hrefused _ ⟨outcome, hstored, rfl⟩

set_option maxRecDepth 20000 in
/-- An INSERT that counts does not do the same to the table that the statement creates. -/
theorem not_every_insert_alike :
    ¬ ∀ database : Database, database.Reachable → ∀ table schema, database.schemas.get? table = some schema →
      schema.isView = false → database.tableRows table = [] →
      (∀ child, ∀ foreignKey ∈ database.foreignKeys child, foreignKey.refTable = table → child = table) →
      ∀ limit next, database.Regenerates limit table next → ∀ insertion : Insert, insertion.table = table →
        InsertsAlike database next insertion := by
  intro hall
  have hfound : tickets.schemas.get? "ticket" = some ticketSchema := by decide +kernel
  have hregenerated : tickets.Regenerates 64 "ticket" _ :=
    (tickets_reachable.regenerates_iff hfound rfl tickets_free).mpr ⟨⟨by decide +kernel, nofun⟩, rfl⟩
  have halike := hall tickets tickets_reachable "ticket" ticketSchema hfound rfl (by decide +kernel) tickets_free 64 _
    hregenerated unnumbered rfl
  obtain ⟨outcome, hstored⟩ : ∃ outcome, tickets.insert unnumbered = .ok outcome :=
    Check.exists_of_isOk (by decide +kernel)
  obtain ⟨outcome, hagain, -⟩ := (halike _).mp ⟨outcome, hstored, rfl⟩
  have hrefused : (((tickets.eraseTable "ticket").addTable ticketSchema.rebuilt).insert unnumbered).isOk = false := by
    decide +kernel
  rw [hagain] at hrefused
  cases hrefused

end Database

end SnapshotSql
