import SnapshotSql.Proofs.BuiltSchemas
import SnapshotSql.Proofs.ReferenceRows

/-! # Snapshots and the transitions between them

Whatever text is executed, the next snapshot comes from the one before by a few transitions: a batch
creates its tables one by one, and any other statement makes one change. What the empty database has
and every transition keeps, every reachable database has.
-/
namespace SnapshotSql

/-- Changes of the rows of a table: at different positions, in order, each from the row that is there. -/
def Integrity.ChangesOf (rows : List Row) (changes : List Change) : Prop :=
  changes.Pairwise (·.position < ·.position) ∧
    ∀ change ∈ changes, rows[change.position]? = some change.before

namespace Database

def Typed (database : Database) (table : Text) (row : Row) : Prop :=
  ∃ name schema source, database.schemas.get? name = some schema ∧ schema.name = table ∧
    castRow schema.columns source = .ok row

/-- One change of a snapshot, by a statement or by one definition of a batch. -/
inductive Transition (database : Database) : Database → Prop where
  | create {definition : CreateTable} {schema : TableSchema} (hdefinition : definition.NamesColumns)
      (hnew : database.schemas.get? definition.table = none)
      (hschema : buildSchema database.schemas definition = .ok schema)
      (hnamed : definition.table ≠ []) (hread : ∃ text, parse text = .ok (.createTable definition)) :
      Transition database (database.addTable schema)
  | view {view : Text} {result : QueryResult}
      (hfree : ∀ schema, database.schemas.get? view = some schema → schema.isView = true)
      (hselect : ∃ query, database.select query = .ok result) (hnamed : view ≠ []) :
      Transition database ⟨view, database.schemas.insert view (viewSchema view result),
        database.rows.insert view result.rows⟩
  | drop {table : Text}
      (hfree : ∀ child, ∀ foreignKey ∈ database.foreignKeys child, foreignKey.refTable = table →
        child = table) :
      Transition database (database.eraseTable table)
  | insert {table : Text} {rows inserted : List Row} {next : Database}
      (h : database.publish (Integrity.insert database table rows) = .ok (inserted, next))
      (htyped : ∀ row ∈ rows, database.Typed table row) : Transition database next
  | update {limit : Int} {table : Text} {changes : List Integrity.Change} {count : Nat}
      {next : Database} (hchanges : Integrity.ChangesOf (database.tableRows table) changes)
      (h : database.publish (Integrity.update database limit table changes) = .ok (count, next))
      (htyped : ∀ change ∈ changes, database.Typed table change.after)
      (hfound : ∃ name schema, database.schemas.get? name = some schema ∧ schema.name = table) :
      Transition database next
  | delete {limit : Int} {table : Text} {positions : List Nat} {count : Nat} {next : Database}
      (h : database.publish (Integrity.delete database limit table positions) = .ok (count, next))
      (hfound : ∃ name schema, database.schemas.get? name = some schema ∧ schema.name = table) :
      Transition database next

abbrev Transitions : Database → Database → Prop :=
  Relation.ReflTransGen Transition

variable {database : Database} {limit : Int} {outcome : Outcome}

/-! ## Definitions -/

/-- One definition of a batch takes effect. -/
inductive Creation (database : Database) : Database → Prop where
  | table {definition : CreateTable} {schema : TableSchema} (hdefinition : definition.NamesColumns)
      (hnew : database.schemas.get? definition.table = none)
      (hschema : buildSchema database.schemas definition = .ok schema)
      (hnamed : definition.table ≠ []) (hread : ∃ text, parse text = .ok (.createTable definition)) :
      Creation database (database.addTable schema)

theorem creations_of_newSchemas {known : OrderedMap TableSchema} {definitions : List CreateTable}
    {created : List TableSchema}
    (hdefinitions : ∀ definition ∈ definitions, (Statement.createTable definition).WellRead)
    {current : Database} (hknown : current.schemas = known)
    (h : database.newSchemas known definitions = .ok created) :
    Relation.ReflTransGen Creation current (created.foldl addTable current) := by
  induction definitions generalizing known created current with
  | nil =>
    cases h
    exact Relation.ReflTransGen.refl
  | cons definition definitions ih =>
    obtain ⟨hread, hrest⟩ := List.forall_mem_cons.mp hdefinitions
    obtain ⟨hnamed, hdefinition⟩ := hread.table definition rfl
    unfold newSchemas at h
    split at h
    · split at h
      · exact ih hrest hknown h
      · exact absurd h Check.invalid_ne_ok
    · next hnew =>
      simp only [Check.bind_eq_ok, Check.pure_eq_ok] at h
      obtain ⟨schema, hschema, more, hmore, rfl⟩ := h
      subst hknown
      refine Relation.ReflTransGen.head (.table hdefinition ?_ hschema hnamed hread.read) (ih hrest rfl hmore)
      cases hget : current.schemas.get? definition.table with
      | none => rfl
      | some other => exact absurd ((OrderedMap.contains_iff ..).mpr ⟨other, hget⟩) hnew

theorem creations_of_createTables {definitions : List CreateTable}
    (hdefinitions : ∀ definition ∈ definitions, (Statement.createTable definition).WellRead)
    (h : database.createTables definitions = .ok outcome) :
    Relation.ReflTransGen Creation database (outcome.snapshot database) := by
  obtain ⟨created, hcreated, h⟩ := Check.bind_eq_ok.mp h
  split at h
  · cases h
    exact Relation.ReflTransGen.refl
  · cases h
    exact creations_of_newSchemas hdefinitions rfl hcreated

theorem transitions_of_createTables {definitions : List CreateTable}
    (hdefinitions : ∀ definition ∈ definitions, (Statement.createTable definition).WellRead)
    (h : database.createTables definitions = .ok outcome) :
    Transitions database (outcome.snapshot database) := by
  have hstep : Creation ≤ Transition := by
    rintro before after ⟨hdefinition, hnew, hschema, hnamed, hread⟩
    exact .create hdefinition hnew hschema hnamed hread
  exact Relation.ReflTransGen.mono hstep _ _ (creations_of_createTables hdefinitions h)

/-- A CREATE VIEW finds no table in its way, and stores the result of its SELECT. -/
theorem of_createView {definition : CreateView} (h : database.createView definition = .ok outcome) :
    (∀ schema, database.schemas.get? definition.view = some schema → schema.isView = true) ∧
      ∃ result, database.select definition.select = .ok result ∧ outcome.snapshot database =
        ⟨definition.view, database.schemas.insert definition.view (viewSchema definition.view result),
          database.rows.insert definition.view result.rows⟩ := by
  unfold createView at h
  dsimp only at h
  split at h
  · obtain ⟨_, hfalse, -⟩ := Check.bind_eq_ok.mp h
    exact absurd hfalse Check.invalid_ne_ok
  · next hfree =>
    obtain ⟨result, hresult, h⟩ := Check.bind_eq_ok.mp h
    cases h
    exact ⟨fun schema hschema => by simpa [hschema] using hfree, result, hresult, rfl⟩

theorem transitions_of_createView {definition : CreateView} (hnamed : definition.view ≠ [])
    (h : database.createView definition = .ok outcome) :
    Transitions database (outcome.snapshot database) := by
  obtain ⟨hfree, result, hresult, hnext⟩ := of_createView h
  rw [hnext]
  exact Relation.ReflTransGen.single (.view hfree ⟨definition.select, hresult⟩ hnamed)

/-- A DROP TABLE erases a table that no other one refers to, or changes nothing. -/
theorem of_dropTable {drop : DropTable} (h : database.dropTable drop = .ok outcome) :
    outcome.snapshot database = database ∨
      outcome.snapshot database = database.eraseTable drop.table ∧
        ∀ child, ∀ foreignKey ∈ database.foreignKeys child, foreignKey.refTable = drop.table →
          child = drop.table := by
  unfold dropTable at h
  dsimp only at h
  split at h
  · split at h
    · cases h
      exact Or.inl rfl
    · cases h
  · split at h
    · next hfree =>
      cases h
      refine Or.inr ⟨rfl, fun child foreignKey hforeign htable => ?_⟩
      rw [List.filter_eq_nil_iff] at hfree
      simpa using hfree (child, foreignKey) ((mem_referencing ..).mpr ⟨hforeign, htable⟩)
    · cases h

theorem transitions_of_dropTable {drop : DropTable} (h : database.dropTable drop = .ok outcome) :
    Transitions database (outcome.snapshot database) := by
  rcases of_dropTable h with hsame | ⟨herased, hfree⟩
  · rw [hsame]
  · rw [herased]
    exact Relation.ReflTransGen.single (.drop hfree)

/-! ## Writes -/

theorem castRow_of_mem_typedRows {schema : TableSchema} {listed : Option (List Text)} {number : Nat}
    {tuples : List (List Scalar)} {rows : List Row} (h : typedRows schema listed number tuples = .ok rows)
    {row : Row} (hrow : row ∈ rows) : ∃ source, castRow schema.columns source = .ok row := by
  induction tuples generalizing number rows with
  | nil =>
    cases h
    cases hrow
  | cons values tuples ih =>
    have hstep : ∃ source first rest, castRow schema.columns source = .ok first ∧
        typedRows schema listed (number + 1) tuples = .ok rest ∧ rows = first :: rest := by
      unfold typedRows at h
      dsimp only at h
      split at h
      · obtain ⟨_, hfalse, -⟩ := Check.bind_eq_ok.mp h
        exact absurd (Check.orFail_eq_ok.mp hfalse) Check.invalid_ne_ok
      · simp only [Check.bind_eq_ok, Check.pure_eq_ok] at h
        obtain ⟨first, hfirst, rest, hrest, rfl⟩ := h
        exact ⟨_, first, rest, hfirst, hrest, rfl⟩
    obtain ⟨source, first, rest, hfirst, hrest, rfl⟩ := hstep
    rcases List.mem_cons.mp hrow with rfl | hmem
    · exact ⟨source, hfirst⟩
    · exact ih hrest hmem

theorem transitions_of_insert {insertion : Insert} (h : database.insert insertion = .ok outcome) :
    Transitions database (outcome.snapshot database) := by
  unfold insert at h
  obtain ⟨schema, hschema, h⟩ := Check.bind_eq_ok.mp h
  obtain ⟨_, -, h⟩ := Check.bind_eq_ok.mp h
  obtain ⟨rows, hrows, h⟩ := Check.bind_eq_ok.mp h
  obtain ⟨⟨inserted, next⟩, hnext, h⟩ := Check.bind_eq_ok.mp h
  rw [Check.orFail_eq_ok, requireTable_eq_ok] at hschema
  have htyped : ∀ row ∈ rows, database.Typed schema.name row := by
    intro row hrow
    obtain ⟨source, hsource⟩ := castRow_of_mem_typedRows hrows hrow
    exact ⟨insertion.table, schema, source, hschema, rfl, hsource⟩
  dsimp only at h
  split at h <;> cases h <;> exact Relation.ReflTransGen.single (.insert hnext htyped)

theorem mem_changesFrom {schema : TableSchema} {update : Update} {start : Nat} {rows : List Row}
    {changes : List Integrity.Change} (h : changesFrom schema update start rows = .ok changes) :
    changes.Pairwise (·.position < ·.position) ∧ ∀ change ∈ changes, start ≤ change.position ∧
      rows[change.position - start]? = some change.before := by
  induction rows generalizing start changes with
  | nil =>
    cases h
    simp
  | cons row rows ih =>
    have htail : ∀ {rest : List Integrity.Change}, changesFrom schema update (start + 1) rows = .ok rest →
        rest.Pairwise (·.position < ·.position) ∧ ∀ change ∈ rest, start < change.position ∧
          (row :: rows)[change.position - start]? = some change.before := by
      intro rest hrest
      refine ⟨(ih hrest).1, fun change hmem => ?_⟩
      obtain ⟨hle, hrow⟩ := (ih hrest).2 change hmem
      have hsub : change.position - start = change.position - (start + 1) + 1 := by omega
      exact ⟨hle, by rw [hsub, List.getElem?_cons_succ, hrow]⟩
    unfold changesFrom at h
    split at h
    · simp only [Check.bind_eq_ok, Check.pure_eq_ok] at h
      obtain ⟨after, -, rest, hrest, rfl⟩ := h
      obtain ⟨hsorted, hchanges⟩ := htail hrest
      refine ⟨List.pairwise_cons.mpr ⟨fun change hmem => (hchanges change hmem).1, hsorted⟩, ?_⟩
      rintro change (_ | ⟨_, hmem⟩)
      · simp
      · exact ⟨Nat.le_of_lt (hchanges change hmem).1, (hchanges change hmem).2⟩
    · obtain ⟨hsorted, hchanges⟩ := htail h
      exact ⟨hsorted, fun change hmem => ⟨Nat.le_of_lt (hchanges change hmem).1, (hchanges change hmem).2⟩⟩

/-- A change is of a row that the UPDATE names, and to what the assignments make of it. -/
theorem assign_of_mem_changesFrom {schema : TableSchema} {update : Update} {start : Nat}
    {rows : List Row} {changes : List Integrity.Change}
    (h : changesFrom schema update start rows = .ok changes) {change : Integrity.Change}
    (hchange : change ∈ changes) : update.condition.all (·.holds change.before) = true ∧
      assign schema update.assignments change.before = .ok change.after := by
  induction rows generalizing start changes with
  | nil =>
    cases h
    cases hchange
  | cons row rows ih =>
    unfold changesFrom at h
    split at h
    · next hnamed =>
      simp only [Check.bind_eq_ok, Check.pure_eq_ok] at h
      obtain ⟨after, hafter, rest, hrest, rfl⟩ := h
      rcases List.mem_cons.mp hchange with rfl | hmem
      · exact ⟨hnamed, hafter⟩
      · exact ih hrest hmem
    · exact ih h hchange

/-- Every row that an UPDATE names is changed at its place. -/
theorem exists_mem_changesFrom {schema : TableSchema} {update : Update} {start position : Nat}
    {rows : List Row} {changes : List Integrity.Change}
    (h : changesFrom schema update start rows = .ok changes) {row : Row}
    (hrow : rows[position]? = some row) (hnamed : update.condition.all (·.holds row) = true) :
    ∃ change ∈ changes, change.position = start + position ∧ change.before = row := by
  induction rows generalizing start position changes with
  | nil => cases hrow
  | cons first rows ih =>
    have hlater : ∀ {rest : List Integrity.Change} {place : Nat}, position = place + 1 →
        changesFrom schema update (start + 1) rows = .ok rest →
        ∃ change ∈ rest, change.position = start + position ∧ change.before = row := by
      rintro rest place rfl hrest
      obtain ⟨change, hmem, hplace, hbefore⟩ := ih hrest (by simpa using hrow)
      exact ⟨change, hmem, by omega, hbefore⟩
    unfold changesFrom at h
    split at h
    · simp only [Check.bind_eq_ok, Check.pure_eq_ok] at h
      obtain ⟨after, -, rest, hrest, rfl⟩ := h
      cases position with
      | zero =>
        cases hrow
        exact ⟨_, List.mem_cons_self, rfl, rfl⟩
      | succ place =>
        obtain ⟨change, hmem, hchange⟩ := hlater rfl hrest
        exact ⟨change, List.mem_cons_of_mem _ hmem, hchange⟩
    · next hother =>
      cases position with
      | zero =>
        cases hrow
        exact absurd hnamed hother
      | succ place => exact hlater rfl h

theorem transitions_of_update {change : Update} (h : database.update limit change = .ok outcome) :
    Transitions database (outcome.snapshot database) := by
  unfold update at h
  obtain ⟨schema, hschema, h⟩ := Check.bind_eq_ok.mp h
  obtain ⟨_, -, h⟩ := Check.bind_eq_ok.mp h
  obtain ⟨changes, hchanges, h⟩ := Check.bind_eq_ok.mp h
  obtain ⟨⟨count, next⟩, hnext, h⟩ := Check.bind_eq_ok.mp h
  cases h
  rw [Check.orFail_eq_ok, requireTable_eq_ok] at hschema
  obtain ⟨hsorted, hbefore⟩ := mem_changesFrom hchanges
  refine Relation.ReflTransGen.single
    (.update ⟨hsorted, fun change hmem => (hbefore change hmem).2⟩ hnext (fun other hmem => ?_)
      ⟨change.table, schema, hschema, rfl⟩)
  exact ⟨change.table, schema, _, hschema, rfl, (assign_of_mem_changesFrom hchanges hmem).2⟩

theorem transitions_of_delete {deletion : Delete} (h : database.delete limit deletion = .ok outcome) :
    Transitions database (outcome.snapshot database) := by
  unfold delete at h
  obtain ⟨schema, hschema, h⟩ := Check.bind_eq_ok.mp h
  obtain ⟨⟨count, next⟩, hnext, h⟩ := Check.bind_eq_ok.mp h
  cases h
  rw [Check.orFail_eq_ok, requireTable_eq_ok] at hschema
  exact Relation.ReflTransGen.single (.delete hnext ⟨deletion.table, schema, hschema, rfl⟩)

/-! ## Texts -/

theorem transitions_of_run {statement : Statement} (hstatement : statement.WellRead)
    (h : database.run limit statement = .ok outcome) :
    Transitions database (outcome.snapshot database) := by
  cases statement with
  | createTable definition =>
    refine transitions_of_createTables (fun other hmem => ?_) (Check.orFail_eq_ok.mp h)
    rw [List.mem_singleton.mp hmem]
    exact hstatement
  | createView definition =>
    exact transitions_of_createView (hstatement.view definition rfl) (Check.orFail_eq_ok.mp h)
  | dropTable drop => exact transitions_of_dropTable (Check.orFail_eq_ok.mp h)
  | insert insertion => exact transitions_of_insert h
  | update change => exact transitions_of_update h
  | delete deletion => exact transitions_of_delete h
  | select query =>
    obtain ⟨result, -, heq⟩ := Check.map_eq_ok.mp (Check.orFail_eq_ok.mp h)
    cases heq
    exact Relation.ReflTransGen.refl

theorem mem_of_onlyDefinitions {statements : List Statement} {definitions : List CreateTable}
    (h : onlyDefinitions statements = .ok definitions) {definition : CreateTable}
    (hmem : definition ∈ definitions) : .createTable definition ∈ statements := by
  induction statements generalizing definitions with
  | nil =>
    cases h
    cases hmem
  | cons statement statements ih =>
    cases statement with
    | createTable first =>
      simp only [onlyDefinitions, Check.bind_eq_ok, Check.pure_eq_ok] at h
      obtain ⟨rest, hrest, rfl⟩ := h
      rcases List.mem_cons.mp hmem with rfl | hmem
      · exact List.mem_cons_self
      · exact List.mem_cons_of_mem _ (ih hrest hmem)
    | _ => cases h

/-- A text that is run as one statement, not as a batch of definitions. -/
structure RunsAs (sql : Text) (statement : Statement) : Prop where
  nonempty : (Text.trim (SourceText.withoutComments sql)).isEmpty = false
  kind : SourceText.kind? (Text.trim (SourceText.withoutComments sql)) ≠ some .createTable
  parsed : parse (Text.trim (SourceText.withoutComments sql)) = .ok statement

theorem execute_of_runsAs {sql : Text} {statement : Statement} (h : RunsAs sql statement) :
    database.execute limit sql = database.run limit statement := by
  simp only [execute, runText, h.nonempty, h.kind, h.parsed, Bool.false_eq_true, if_false]
  rfl

/-- A text that succeeds has changed nothing, or is a batch, or is run as one statement. -/
theorem of_execute {sql : Text} (h : database.execute limit sql = .ok outcome) :
    outcome.snapshot database = database ∨
      (∃ definitions : List CreateTable,
        (∀ definition ∈ definitions, (Statement.createTable definition).WellRead) ∧
          database.createTables definitions = .ok outcome) ∨
      ∃ statement, RunsAs sql statement ∧ database.run limit statement = .ok outcome := by
  unfold execute runText at h
  dsimp only at h
  split at h
  · cases h
    exact Or.inl rfl
  · next hnonempty =>
    split at h
    · simp only [Check.bind_eq_ok, Check.orFail_eq_ok] at h
      obtain ⟨statements, hstatements, definitions, hdefinitions, h⟩ := h
      refine Or.inr (Or.inl ⟨definitions, fun definition hmem => ?_, h⟩)
      obtain ⟨text, -, hparse⟩ :=
        Check.exists_of_mem_mapM hstatements (mem_of_onlyDefinitions hdefinitions hmem)
      exact wellRead_of_parse hparse
    · next hkind =>
      obtain ⟨statement, hparse, h⟩ := Check.bind_eq_ok.mp h
      exact Or.inr (Or.inr ⟨statement, ⟨by simpa using hnonempty, hkind, hparse⟩, h⟩)

/-- Whatever text is executed, the snapshot goes through transitions only. -/
theorem transitions_of_execute {sql : Text} (h : database.execute limit sql = .ok outcome) :
    Transitions database (outcome.snapshot database) := by
  rcases of_execute h with hsame | ⟨definitions, hdefinitions, h⟩ | ⟨statement, hruns, h⟩
  · rw [hsame]
  · exact transitions_of_createTables hdefinitions h
  · exact transitions_of_run (wellRead_of_parse hruns.parsed) h

/-! ## Reachable snapshots -/

/-- The snapshot after a text. One that fails leaves the snapshot as it was. -/
def after (database : Database) (limit : Int) (sql : Text) : Database :=
  match database.execute limit sql with
  | .ok outcome => outcome.snapshot database
  | .error _ => database

def afterAll (database : Database) (texts : List (Int × Text)) : Database :=
  texts.foldl (fun database text => database.after text.1 text.2) database

/-- The snapshots that texts lead to from the empty one. -/
def Reachable (database : Database) : Prop :=
  ∃ texts, afterAll .empty texts = database

theorem transitions_after (database : Database) (limit : Int) (sql : Text) :
    Transitions database (database.after limit sql) := by
  unfold after
  split
  · next h => exact transitions_of_execute h
  · exact Relation.ReflTransGen.refl

theorem transitions_afterAll (database : Database) (texts : List (Int × Text)) :
    Transitions database (database.afterAll texts) := by
  induction texts generalizing database with
  | nil => exact Relation.ReflTransGen.refl
  | cons text texts ih => exact (transitions_after database text.1 text.2).trans (ih _)

/-- What the empty snapshot has and every transition keeps, all reachable snapshots have. -/
theorem Reachable.invariant (holds : Database → Prop) (hempty : holds .empty)
    (hstep : ∀ before after, Transition before after → holds before → holds after)
    (h : database.Reachable) : holds database := by
  obtain ⟨texts, rfl⟩ := h
  have htransitions := transitions_afterAll .empty texts
  generalize afterAll .empty texts = last at htransitions ⊢
  induction htransitions with
  | refl => exact hempty
  | tail _ hlast ih => exact hstep _ _ hlast ih

/-- Texts lead on from a reachable snapshot to reachable ones. -/
theorem Reachable.afterAll (h : database.Reachable) (texts : List (Int × Text)) :
    (database.afterAll texts).Reachable := by
  obtain ⟨earlier, rfl⟩ := h
  exact ⟨earlier ++ texts, List.foldl_append⟩

/-- Teams with players, who go with their team, and notes, which stay without their player. -/
def leagueTexts : List (Int × Text) :=
  [(64, "CREATE TABLE team(id INT PRIMARY KEY, name TEXT NOT NULL UNIQUE)"),
    (64, "CREATE TABLE player(id INT PRIMARY KEY, team INT REFERENCES team(id) ON DELETE CASCADE)"),
    (64, "CREATE TABLE note(id INT, player INT REFERENCES player(id) ON DELETE SET NULL)"),
    (64, "INSERT INTO team VALUES (1, 'red'), (2, 'blue')"),
    (64, "INSERT INTO player VALUES (1, 1), (2, 2)"),
    (64, "INSERT INTO note VALUES (1, 1), (2, 2)")]

def league : Database :=
  let plain (name : Text) : Column := ⟨name, .int, false, false, false⟩
  ⟨"note",
    .ofList [
      ("team", ⟨"team", [plain "id", ⟨"name", .text, true, true, false⟩], ["id"], [["name"]], [],
        .column, false⟩),
      ("player", ⟨"player", [plain "id", plain "team"], ["id"], [],
        [⟨["team"], "team", ["id"], .cascade, .restrict, none⟩], .column, false⟩),
      ("note", ⟨"note", [⟨"id", .int, false, false, true⟩, plain "player"], ["id"], [],
        [⟨["player"], "player", ["id"], .setNull, .restrict, none⟩], .existingId, false⟩)],
    .ofList [
      ("team", [.ofList [("id", .int 1), ("name", .text "red")],
        .ofList [("id", .int 2), ("name", .text "blue")]]),
      ("player", [.ofList [("id", .int 1), ("team", .int 1)],
        .ofList [("id", .int 2), ("team", .int 2)]]),
      ("note", [.ofList [("id", .int 1), ("player", .int 1)],
        .ofList [("id", .int 2), ("player", .int 2)]])]⟩

set_option maxRecDepth 20000 in
theorem league_reachable : league.Reachable :=
  ⟨leagueTexts, by decide +kernel⟩

/-! ## What references point at -/

variable {before after : Database} {accepts : ForeignKey → TableSchema → Prop}

def PointsAt (accepts : ForeignKey → TableSchema → Prop) (database : Database) : Prop :=
  ∀ table, ∀ foreignKey ∈ database.foreignKeys table,
    ∃ target, database.schemas.get? foreignKey.refTable = some target ∧ accepts foreignKey target

def HasReferenced (foreignKey : ForeignKey) (target : TableSchema) : Prop :=
  ∀ name ∈ foreignKey.refColumns, name ∈ target.columnNames

theorem PointsAt.of_schemas_eq (h : before.PointsAt accepts) (hschemas : after.schemas = before.schemas) :
    after.PointsAt accepts := by
  unfold PointsAt foreignKeys
  rw [hschemas]
  exact h

/-- A schema that is entered has its own references to satisfy, and those that point at its name. -/
theorem PointsAt.enter {name : Text} {schema : TableSchema} (h : before.PointsAt accepts)
    (hschemas : after.schemas = before.schemas.insert name schema)
    (hown : ∀ foreignKey ∈ schema.foreignKeys,
      ∃ target, after.schemas.get? foreignKey.refTable = some target ∧ accepts foreignKey target)
    (hothers : ∀ table, ∀ foreignKey ∈ before.foreignKeys table, foreignKey.refTable = name →
      accepts foreignKey schema) : after.PointsAt accepts := by
  intro table foreignKey hforeign
  obtain ⟨declared, hdeclared, hmem⟩ := (mem_foreignKeys ..).mp hforeign
  rw [hschemas, OrderedMap.get?_insert] at hdeclared
  split at hdeclared
  · cases hdeclared
    exact hown foreignKey hmem
  · have hold := (mem_foreignKeys ..).mpr ⟨declared, hdeclared, hmem⟩
    obtain ⟨target, htarget, haccepts⟩ := h table foreignKey hold
    rw [hschemas, OrderedMap.get?_insert]
    split
    · next hname => exact ⟨schema, rfl, hothers table foreignKey hold hname⟩
    · exact ⟨target, htarget, haccepts⟩

theorem PointsAt.erase {table : Text} (h : before.PointsAt accepts)
    (hfree : ∀ child, ∀ foreignKey ∈ before.foreignKeys child, foreignKey.refTable = table →
      child = table) : (before.eraseTable table).PointsAt accepts := by
  have hget : ∀ other, (before.eraseTable table).schemas.get? other =
      if other = table then none else before.schemas.get? other := fun other => OrderedMap.get?_erase ..
  intro child foreignKey hforeign
  obtain ⟨declared, hdeclared, hmem⟩ := (mem_foreignKeys ..).mp hforeign
  rw [hget] at hdeclared
  split at hdeclared
  · cases hdeclared
  · next hchild =>
    have hold := (mem_foreignKeys ..).mpr ⟨declared, hdeclared, hmem⟩
    obtain ⟨target, htarget, haccepts⟩ := h child foreignKey hold
    refine ⟨target, ?_, haccepts⟩
    rw [hget, if_neg fun heq => hchild (hfree child foreignKey hold heq), htarget]

/-- A table that is created has references whose targets have the columns, and none that point at it
but its own. -/
theorem PointsAt.create {definition : CreateTable} {schema : TableSchema} (h : before.PointsAt accepts)
    (hcolumns : ∀ {foreignKey target}, HasReferenced foreignKey target → accepts foreignKey target)
    (hdefinition : definition.NamesColumns) (hnew : before.schemas.get? definition.table = none)
    (hschema : buildSchema before.schemas definition = .ok schema) :
    (before.addTable schema).PointsAt accepts := by
  obtain ⟨hname, -, htargets⟩ := of_buildSchema hdefinition hschema
  refine h.enter rfl (fun foreignKey hmem => ?_) fun table foreignKey hforeign htarget => ?_
  · obtain ⟨target, htarget, hfound⟩ := htargets foreignKey hmem
    exact ⟨target, htarget, hcolumns hfound⟩
  · obtain ⟨target, hthere, -⟩ := h table foreignKey hforeign
    rw [htarget, hname, hnew] at hthere
    cases hthere

theorem Transition.pointsAt (h : Transition before after)
    (hcolumns : ∀ {foreignKey target}, HasReferenced foreignKey target → accepts foreignKey target)
    (hview : ∀ {foreignKey target}, target.isView = true → accepts foreignKey target)
    (hbefore : before.PointsAt accepts) : after.PointsAt accepts := by
  cases h with
  | create hdefinition hnew hschema => exact hbefore.create hcolumns hdefinition hnew hschema
  | view => exact hbefore.enter rfl nofun fun _ _ _ _ => hview rfl
  | drop hfree => exact hbefore.erase hfree
  | insert h => exact hbefore.of_schemas_eq (schemas_of_publish h)
  | update _ h => exact hbefore.of_schemas_eq (schemas_of_publish h)
  | delete h => exact hbefore.of_schemas_eq (schemas_of_publish h)

/-! ## What the schemas of all snapshots have -/

/-- Every schema has been built by a statement, and every reference points at a table that is there. -/
structure WellBuilt (database : Database) : Prop where
  schema : ∀ table schema, database.schemas.get? table = some schema → schema.WellBuilt
  target : ∀ table, ∀ foreignKey ∈ database.foreignKeys table,
    ∃ schema, database.schemas.get? foreignKey.refTable = some schema

theorem Transition.wellBuilt (h : Transition before after) (hbefore : before.WellBuilt) :
    after.WellBuilt := by
  have hpoints : after.PointsAt fun _ _ => True :=
    h.pointsAt (fun _ => trivial) (fun _ => trivial) fun table foreignKey hforeign =>
      (hbefore.target table foreignKey hforeign).imp fun _ htarget => ⟨htarget, trivial⟩
  refine ⟨fun table found hfound => ?_, fun table foreignKey hforeign =>
    (hpoints table foreignKey hforeign).imp fun _ htarget => htarget.1⟩
  have hinsert : ∀ {name : Text} {schema : TableSchema}, schema.WellBuilt →
      (before.schemas.insert name schema).get? table = some found → found.WellBuilt := by
    intro name schema hschema hget
    rw [OrderedMap.get?_insert] at hget
    split at hget
    · cases hget
      exact hschema
    · exact hbefore.schema table found hget
  cases h with
  | create hdefinition _ hschema => exact hinsert (of_buildSchema hdefinition hschema).2.1 hfound
  | view => exact hinsert (wellBuilt_viewSchema _ _) hfound
  | drop =>
    rw [eraseTable, OrderedMap.get?_erase] at hfound
    split at hfound
    · cases hfound
    · exact hbefore.schema table found hfound
  | insert h => exact hbefore.schema table found (schemas_of_publish h ▸ hfound)
  | update _ h => exact hbefore.schema table found (schemas_of_publish h ▸ hfound)
  | delete h => exact hbefore.schema table found (schemas_of_publish h ▸ hfound)

theorem Reachable.wellBuilt (h : database.Reachable) : database.WellBuilt :=
  h.invariant WellBuilt ⟨nofun, nofun⟩ fun _ _ => Transition.wellBuilt

/-- A transition only has to keep what it can rely on schemas for. -/
theorem Reachable.invariant_of_wellBuilt (holds : Database → Prop) (hempty : holds .empty)
    (hstep : ∀ before after, Transition before after → before.WellBuilt → holds before → holds after)
    (h : database.Reachable) : holds database := by
  have hboth : database.WellBuilt ∧ holds database := by
    refine h.invariant (fun database => database.WellBuilt ∧ holds database)
      ⟨⟨nofun, nofun⟩, hempty⟩ fun before after htransition hbefore => ?_
    exact ⟨htransition.wellBuilt hbefore.1, hstep before after htransition hbefore.1 hbefore.2⟩
  exact hboth.2

end Database

end SnapshotSql
