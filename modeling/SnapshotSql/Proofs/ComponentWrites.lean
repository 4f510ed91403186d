import SnapshotSql.Proofs.StagedTables

/-! # What a write reads

A write reads the rows of its own table, of those that it reaches over references, and of the tables that
these refer to. All of them lie in any collection with the table of the write that no reference crosses.
So on two snapshots that have the same schemas, and the same rows in such a collection, a write of one of
its tables is one and the same computation: it stages the same rows, answers the same and is refused for
the same reason.
-/
namespace SnapshotSql

namespace Staging

variable {α β : Type} {tables : Text → Prop} {answers : α → Prop} {write : Staging α}
  {next next' : α → Staging β}

/-- What follows a write matters for the values only that the write answers. -/
theorem bind_congr_of_runs
    (h : ∀ value before after, Runs write before value after → next value = next' value) :
    write >>= next = write >>= next' := by
  funext before
  change ExceptT.bindCont next (write before).1 (write before).2 =
    ExceptT.bindCont next' (write before).1 (write before).2
  rcases hwrite : write before with ⟨error | value, after⟩
  · rfl
  · exact congrFun (h value before after hwrite) after

theorem Stages.bind_congr (h : Stages tables write answers)
    (hnext : ∀ value, answers value → next value = next' value) : write >>= next = write >>= next' :=
  bind_congr_of_runs fun value before after hruns => hnext value (h before value after hruns).1

theorem check_bind_congr {result : Except SqlError α}
    (h : ∀ value, result = .ok value → next value = next' value) :
    check result >>= next = check result >>= next' :=
  bind_congr_of_runs fun value _ _ hruns => h value (runs_check.mp hruns).1

theorem forM_congr {items : List α} {each each' : α → Staging Unit}
    (h : ∀ item ∈ items, each item = each' item) : items.forM each = items.forM each' := by
  induction items with
  | nil => rfl
  | cons item items ih =>
    obtain ⟨hitem, hitems⟩ := List.forall_mem_cons.mp h
    change each item >>= (fun _ => items.forM each) = each' item >>= fun _ => items.forM each'
    rw [hitem, ih hitems]

end Staging

namespace Database

/-- No reference leads from inside the collection to outside, or from outside to inside. -/
def Uncrossed (database : Database) (tables : Text → Prop) : Prop :=
  ∀ table, ∀ foreignKey ∈ database.foreignKeys table, tables table ↔ tables foreignKey.refTable

/-- Two snapshots have the same schemas, and the same rows in the tables of a collection. -/
structure AlikeOn (tables : Text → Prop) (database database' : Database) : Prop where
  schemas : database'.schemas = database.schemas
  rows : ∀ table, tables table → database'.tableRows table = database.tableRows table

theorem Uncrossed.closedUnder {database : Database} {tables : Text → Prop} (h : database.Uncrossed tables) :
    Integrity.ClosedUnder database tables := by
  rintro table htable ⟨child, foreignKey⟩ hreference
  obtain ⟨hforeign, rfl⟩ := (mem_referencing ..).mp hreference
  exact (h child foreignKey hforeign).mpr htable

namespace AlikeOn

variable {tables : Text → Prop} {database database' : Database} {table : Text} {limit : Int}
  (halike : AlikeOn tables database database')

include halike

theorem requireTable (table : Text) : database'.requireTable table = database.requireTable table := by
  rw [Database.requireTable, Database.requireTable, halike.schemas]

theorem referencing (table : Text) : database'.referencing table = database.referencing table := by
  rw [Database.referencing, Database.referencing, halike.schemas]

theorem stagedRows (htable : tables table) : Staging.rows database' table = Staging.rows database table := by
  funext scratch
  simp only [Staging.rows, Staging.rowsIn, halike.rows table htable]

open Integrity Staging

/-! ## INSERT -/

theorem checkForeignKeys (hcrossed : database.Uncrossed tables) (htable : tables table) (rows : List Row) :
    checkForeignKeys database' table rows = checkForeignKeys database table rows := by
  rw [Integrity.checkForeignKeys, halike.requireTable]
  refine check_bind_congr fun schema hschema => forM_congr fun foreignKey hforeign => ?_
  have hdeclared : foreignKey ∈ database.foreignKeys table :=
    (mem_foreignKeys ..).mpr ⟨schema, requireTable_eq_ok.mp hschema, hforeign⟩
  rw [halike.stagedRows ((hcrossed table foreignKey hdeclared).mp htable)]

theorem insertRows (hcrossed : database.Uncrossed tables) (htable : tables table) (schema : TableSchema)
    (seen : SeenKeys) (rows : List Row) :
    insertRows database' schema table seen rows = insertRows database schema table seen rows := by
  induction rows generalizing seen with
  | nil => rfl
  | cons row rows ih =>
    simp only [Integrity.insertRows, insertRow, halike.stagedRows htable,
      halike.checkForeignKeys hcrossed htable, ih]

theorem insert (hcrossed : database.Uncrossed tables) (htable : tables table) (rows : List Row) :
    Integrity.insert database' table rows = Integrity.insert database table rows := by
  simp only [Integrity.insert, halike.requireTable, halike.stagedRows htable,
    halike.insertRows hcrossed htable]

/-! ## DELETE -/

theorem spreadDelete {wave : Wave} (hwave : tables wave.table) (staged : Bool)
    {references : List (Text × ForeignKey)} (hreferences : ∀ reference ∈ references, tables reference.1)
    (waves : List Wave) :
    spreadDelete database' wave staged references waves = spreadDelete database wave staged references waves := by
  induction references generalizing waves with
  | nil => rfl
  | cons reference references ih =>
    obtain ⟨child, foreignKey⟩ := reference
    obtain ⟨hchild, hrest⟩ := List.forall_mem_cons.mp hreferences
    simp only [Integrity.spreadDelete, answerDelete, halike.stagedRows hwave, halike.stagedRows hchild,
      halike.rows wave.table hwave, ih hrest]

theorem deleteDepth (hclosed : ClosedUnder database tables) {level : List Wave}
    (hlevel : ∀ wave ∈ level, tables wave.table) (waves : List Wave) :
    deleteDepth database' level waves = deleteDepth database level waves := by
  induction level generalizing waves with
  | nil => rfl
  | cons wave level ih =>
    obtain ⟨hwave, hrest⟩ := List.forall_mem_cons.mp hlevel
    simp only [Integrity.deleteDepth, halike.referencing,
      halike.spreadDelete hwave _ (hclosed wave.table hwave), ih hrest]

theorem deleteWaves (hclosed : ClosedUnder database tables) (depths : Nat) {level : List Wave}
    (hlevel : ∀ wave ∈ level, tables wave.table) (waves : List Wave) :
    deleteWaves database' limit depths level waves = deleteWaves database limit depths level waves := by
  induction depths generalizing level waves with
  | zero => cases level <;> rfl
  | succ depths ih =>
    cases level with
    | nil => rfl
    | cons wave level =>
      change Integrity.deleteDepth database' (wave :: level) waves >>= _ =
        Integrity.deleteDepth database (wave :: level) waves >>= _
      rw [halike.deleteDepth hclosed hlevel]
      exact (stages_deleteDepth hclosed hlevel waves).bind_congr fun next hnext => ih hnext _

theorem delete (hclosed : ClosedUnder database tables) (htable : tables table) (positions : List Nat) :
    Integrity.delete database' limit table positions = Integrity.delete database limit table positions := by
  have hfirst : ∀ wave ∈ [Wave.mk table positions], tables wave.table :=
    List.forall_mem_singleton.mpr htable
  rw [Integrity.delete, halike.deleteWaves hclosed _ hfirst]
  refine (stages_deleteWaves hclosed _ hfirst hfirst).bind_congr fun waves hwaves => ?_
  have hremoved : ∀ other ∈ (waves.map (·.table)).eraseDups,
      removeDoomed database' waves other = removeDoomed database waves other := by
    intro other hother
    obtain ⟨wave, hwave, rfl⟩ := List.mem_map.mp (List.mem_eraseDups.mp hother)
    rw [removeDoomed, halike.stagedRows (hwaves wave hwave)]
    rfl
  rw [forM_congr hremoved]

/-! ## UPDATE -/

theorem spreadUpdate (revision : Revision) {references : List (Text × ForeignKey)}
    (hreferences : ∀ reference ∈ references, tables reference.1) :
    spreadUpdate database' revision references = spreadUpdate database revision references := by
  induction references with
  | nil => rfl
  | cons reference references ih =>
    obtain ⟨child, foreignKey⟩ := reference
    obtain ⟨hchild, hrest⟩ := List.forall_mem_cons.mp hreferences
    simp only [Integrity.spreadUpdate, answerUpdate, halike.stagedRows hchild, ih hrest]

theorem updateDepth (hclosed : ClosedUnder database tables) {level : List Revision}
    (hlevel : ∀ revision ∈ level, tables revision.table) :
    updateDepth database' level = updateDepth database level := by
  induction level with
  | nil => rfl
  | cons revision level ih =>
    obtain ⟨hrevision, hrest⟩ := List.forall_mem_cons.mp hlevel
    simp only [Integrity.updateDepth, halike.referencing,
      halike.spreadUpdate revision (hclosed revision.table hrevision), ih hrest]

theorem updateTables (hclosed : ClosedUnder database tables) (depths : Nat) {level : List Revision}
    (hlevel : ∀ revision ∈ level, tables revision.table) :
    updateTables database' limit depths level = updateTables database limit depths level := by
  induction depths generalizing level with
  | zero => cases level <;> rfl
  | succ depths ih =>
    cases level with
    | nil => rfl
    | cons revision level =>
      change Integrity.updateDepth database' (revision :: level) >>= _ =
        Integrity.updateDepth database (revision :: level) >>= _
      rw [halike.updateDepth hclosed hlevel]
      refine (stages_updateDepth hclosed hlevel).bind_congr fun next hnext => ?_
      rw [ih hnext]

theorem validate (hcrossed : database.Uncrossed tables) (htable : tables table) :
    validate database' table = validate database table := by
  simp only [Integrity.validate, validateKeys, halike.requireTable, halike.stagedRows htable,
    halike.checkForeignKeys hcrossed htable]

theorem update (hcrossed : database.Uncrossed tables) (htable : tables table) (changes : List Change) :
    Integrity.update database' limit table changes = Integrity.update database limit table changes := by
  have hclosed := hcrossed.closedUnder
  rw [Integrity.update, halike.stagedRows htable]
  refine bind_congr fun staged => bind_congr fun _ => ?_
  extract_lets first
  have hfirst : ∀ revision ∈ [first], tables revision.table := List.forall_mem_singleton.mpr htable
  rw [halike.updateTables hclosed _ hfirst]
  refine (stages_updateTables hclosed _ hfirst).bind_congr fun touched htouched => ?_
  rw [forM_congr fun other hother => halike.validate hcrossed (htouched other (List.mem_eraseDups.mp hother))]

end AlikeOn

end Database

end SnapshotSql
