import SnapshotSql.Proofs.ParallelRuns
import SnapshotSql.Proofs.RowReadings

/-! # Writes on snapshots that lie side by side

Two snapshots lie side by side if they have the same schemas and, table by table, rows that are related
one to one. A relation of rows that hold the same values, and hold them still after the same insertion,
is kept by every write: INSERT, DELETE and UPDATE take the same steps on both snapshots, are refused with
the same error, and leave snapshots that lie side by side.
-/
namespace SnapshotSql

namespace Row

/-- A relation of rows that hold the same values, before and after the same insertion. -/
structure Congruence (related : Row → Row → Prop) : Prop where
  refl : ∀ row, related row row
  sameValues : ∀ row other, related row other → row.SameValues other
  insert : ∀ row other name value, related row other → related (row.insert name value) (other.insert name value)

variable {related : Row → Row → Prop}

theorem Congruence.forall₂_sameValues (h : Congruence related) {rows others : List Row}
    (hrows : List.Forall₂ related rows others) : List.Forall₂ SameValues rows others :=
  hrows.imp h.sameValues

theorem Congruence.foldl_insert (h : Congruence related) (entries : List (Text × Scalar)) {row other : Row}
    (hrow : related row other) :
    related (entries.foldl (fun row entry => row.insert entry.1 entry.2) row)
      (entries.foldl (fun row entry => row.insert entry.1 entry.2) other) := by
  induction entries generalizing row other with
  | nil => exact hrow
  | cons entry entries ih => exact ih (h.insert _ _ _ _ hrow)

end Row

/-- Two snapshots with the same schemas and with related rows. -/
structure Database.Beside (related : Text → Row → Row → Prop) (database database' : Database) : Prop where
  active : database'.active = database.active
  schemas : database'.schemas = database.schemas
  tables : database'.rows.names = database.rows.names
  rows : ∀ table, List.Forall₂ (related table) (database.tableRows table) (database'.tableRows table)

namespace Database.Beside

variable {related : Text → Row → Row → Prop} {database database' : Database}

theorem requireTable (h : Beside related database database') (table : Text) :
    database'.requireTable table = database.requireTable table := by
  rw [Database.requireTable, Database.requireTable, h.schemas]

theorem referencing (h : Beside related database database') (table : Text) :
    database'.referencing table = database.referencing table := by
  rw [Database.referencing, Database.referencing, h.schemas]

end Database.Beside

namespace Staging

/-- The same tables have been staged beside two snapshots, and all rows are related as they stand. -/
structure Beside (related : Text → Row → Row → Prop) (database database' : Database)
    (staged staged' : Scratch) : Prop where
  tables : staged'.names = staged.names
  rows : ∀ table, List.Forall₂ (related table) (rowsIn database staged table) (rowsIn database' staged' table)

variable {related : Text → Row → Row → Prop} {database database' : Database} {staged staged' : Scratch}

theorem Beside.commit (h : Beside related database database' staged staged')
    (hbeside : Database.Beside related database database') :
    Database.Beside related (database.commit staged) (database'.commit staged') := by
  refine ⟨hbeside.active, hbeside.schemas, ?_, fun table => ?_⟩
  · change (database'.rows.insertAll staged').names = (database.rows.insertAll staged).names
    rw [OrderedMap.names_insertAll_eq, OrderedMap.names_insertAll_eq, h.tables, hbeside.tables]
  · rw [Database.tableRows_commit, Database.tableRows_commit]
    exact h.rows table

theorem agree_rows_beside (table : Text) :
    Agree (Beside related database database') (List.Forall₂ (related table)) (rows database table)
      (rows database' table) :=
  agree_rows fun _ _ h => h.rows table

theorem agree_setRows_beside {table : Text} {rows rows' : List Row}
    (h : List.Forall₂ (related table) rows rows') :
    Agree (Beside related database database') Eq (setRows table rows) (setRows table rows') := by
  refine agree_setRows fun staged staged' hstaged =>
    ⟨by rw [OrderedMap.names_insert, OrderedMap.names_insert, hstaged.tables], fun other => ?_⟩
  rw [rowsIn_insert, rowsIn_insert]
  split
  · next heq => exact heq ▸ h
  · exact hstaged.rows other

end Staging

namespace Integrity

open Staging

/-! ## Rows that change alike -/

section
variable {related : Row → Row → Prop} {rows rows' : List Row} {row row' : Row}

theorem forall₂_changeAt_congr (h : List.Forall₂ related rows rows') (positions : List Nat)
    {change : Row → Row} (hchange : ∀ row row', related row row' → related (change row) (change row')) :
    List.Forall₂ related (changeAt rows positions change) (changeAt rows' positions change) := by
  refine List.rel_map ?_ (forall₂_zipIdx h 0)
  rintro ⟨row, position⟩ ⟨row', _⟩ ⟨hrow, rfl⟩
  dsimp only
  split
  · exact hchange row row' hrow
  · exact hrow

theorem related_nullOut (hrelated : Row.Congruence related) (foreignKey : ForeignKey) (h : related row row') :
    related (nullOut foreignKey row) (nullOut foreignKey row') := by
  have hnulls : ∀ row : Row, nullOut foreignKey row =
      (foreignKey.columns.map fun column => (column, Scalar.null)).foldl
        (fun row entry => row.insert entry.1 entry.2) row := fun row => by rw [nullOut, List.foldl_map]
  rw [hnulls, hnulls]
  exact hrelated.foldl_insert _ h

theorem related_followKey (hrelated : Row.Congruence related) (foreignKey : ForeignKey)
    (keys : List (Text × List Scalar)) (h : related row row') :
    related (followKey foreignKey keys row) (followKey foreignKey keys row') := by
  unfold followKey
  rw [reference?_congr ((hrelated.sameValues _ _ h).values _)]
  split
  · split
    · exact hrelated.foldl_insert _ h
    · exact h
  · exact related_nullOut hrelated foreignKey h

/-- Changes of related rows at one position to related rows. -/
structure Change.Beside (related : Row → Row → Prop) (change change' : Change) : Prop where
  position : change'.position = change.position
  before : related change.before change'.before
  after : related change.after change'.after

theorem forall₂_replaceAt (h : List.Forall₂ related rows rows') {changes changes' : List Change}
    (hchanges : List.Forall₂ (Change.Beside related) changes changes') :
    List.Forall₂ related (replaceAt rows (changes.map fun change => (change.position, change.after)))
      (replaceAt rows' (changes'.map fun change => (change.position, change.after))) := by
  unfold replaceAt
  rw [List.foldl_map, List.foldl_map]
  induction hchanges generalizing rows rows' with
  | nil => exact h
  | cons hchange _ ih =>
    refine ih ?_
    dsimp only
    rw [hchange.position]
    exact forall₂_set h hchange.after _

/-- Revisions of one table that change related rows to related ones. -/
structure Revision.Beside (related : Text → Row → Row → Prop) (revision revision' : Revision) : Prop where
  table : revision'.table = revision.table
  changes : List.Forall₂ (fun change change' => related revision.table change.1 change'.1 ∧
    related revision.table change.2 change'.2) revision.changes revision'.changes

end

/-! ## Steps of a write -/

variable {related : Text → Row → Row → Prop} {database database' : Database} {table : Text} {limit : Int}
  (hrelated : ∀ table, Row.Congruence (related table)) (hbeside : Database.Beside related database database')
include hrelated hbeside

/-! ## Checks -/

theorem agree_checkForeignKeys {rows rows' : List Row} (h : List.Forall₂ Row.SameValues rows rows') :
    Agree (Beside related database database') Eq (checkForeignKeys database table rows)
      (checkForeignKeys database' table rows') := by
  unfold checkForeignKeys
  rw [hbeside.requireTable]
  refine (agree_check rfl).bind fun schema _ heq => ?_
  subst heq
  refine agree_forM fun foreignKey => (agree_rows_beside _).bind fun parents parents' hparents => ?_
  exact agree_check (checkReferences_congr foreignKey table ((hrelated _).forall₂_sameValues hparents) h)

theorem agree_validateKeys : Agree (Beside related database database') Eq (validateKeys database table)
    (validateKeys database' table) := by
  unfold validateKeys
  rw [hbeside.requireTable]
  refine (agree_check rfl).bind fun schema _ heq => ?_
  subst heq
  refine (agree_rows_beside _).bind fun rows rows' hrows => ?_
  have hkeys := SeenKeys.ofRows_congr schema ((hrelated _).forall₂_sameValues hrows)
  exact (agree_check hkeys).bind fun _ _ _ => agree_pure rfl

/-! ## INSERT -/

theorem agree_insertRow (schema : TableSchema) (seen : SeenKeys) (row : Row) :
    Agree (Beside related database database') Eq (insertRow database schema table seen row)
      (insertRow database' schema table seen row) := by
  refine (agree_rows_beside _).bind fun staged staged' hstaged => ?_
  rw [fillCounters_congr schema ((hrelated _).forall₂_sameValues hstaged)]
  generalize fillCounters schema staged' row = stored
  refine (agree_check rfl).bind fun next _ heq => ?_
  subst heq
  have hstored : List.Forall₂ (related table) [stored] [stored] :=
    .cons ((hrelated table).refl stored) .nil
  refine (agree_setRows_beside (List.rel_append hstaged hstored)).bind fun _ _ _ => ?_
  exact (agree_checkForeignKeys hrelated hbeside ((hrelated table).forall₂_sameValues hstored)).bind
    fun _ _ _ => agree_pure rfl

theorem agree_insertRows (schema : TableSchema) (seen : SeenKeys) (rows : List Row) :
    Agree (Beside related database database') Eq (insertRows database schema table seen rows)
      (insertRows database' schema table seen rows) := by
  induction rows generalizing seen with
  | nil => exact agree_pure rfl
  | cons row rows ih =>
    refine (agree_insertRow hrelated hbeside schema seen row).bind fun inserted _ heq => ?_
    subst heq
    exact (ih inserted.1).bind fun rest _ heq => agree_pure (heq ▸ rfl)

theorem agree_insert (rows : List Row) : Agree (Beside related database database') Eq
    (insert database table rows) (insert database' table rows) := by
  unfold insert
  rw [hbeside.requireTable]
  refine (agree_check rfl).bind fun schema _ heq => ?_
  subst heq
  refine (agree_rows_beside _).bind fun staged staged' hstaged => ?_
  refine (agree_setRows_beside hstaged).bind fun _ _ _ => ?_
  have hkeys := SeenKeys.ofRows_congr schema ((hrelated _).forall₂_sameValues hstaged)
  refine (agree_check hkeys).bind fun seen _ heq => ?_
  subst heq
  exact agree_insertRows hrelated hbeside schema seen rows

/-! ## DELETE -/

omit hbeside in
theorem agree_answerDelete (waves : List Wave) (wave : Wave) {parents parents' : List Row}
    (hparents : List.Forall₂ (related wave.table) parents parents') (child : Text) (foreignKey : ForeignKey) :
    Agree (Beside related database database') Eq
      (answerDelete database waves wave parents child foreignKey)
      (answerDelete database' waves wave parents' child foreignKey) := by
  unfold answerDelete
  rw [lostKeys_congr foreignKey ((hrelated _).forall₂_sameValues hparents)]
  refine (agree_rows_beside child).bind fun children children' hchildren => ?_
  rw [referringTo_congr foreignKey _ ((hrelated _).forall₂_sameValues hchildren)]
  refine Agree.ite (agree_pure rfl) ?_
  split
  · exact agree_throw _
  · exact agree_pure rfl
  · refine (agree_setRows_beside ?_).bind fun _ _ _ => agree_pure rfl
    exact forall₂_changeAt_congr hchildren _ fun _ _ => related_nullOut (hrelated child) foreignKey

theorem agree_spreadDelete (wave : Wave) (staged : Bool) (references : List (Text × ForeignKey))
    (waves : List Wave) : Agree (Beside related database database') Eq
      (spreadDelete database wave staged references waves)
      (spreadDelete database' wave staged references waves) := by
  induction references generalizing waves with
  | nil => exact agree_pure rfl
  | cons reference references ih =>
    obtain ⟨child, foreignKey⟩ := reference
    unfold spreadDelete
    extract_lets spread spread'
    have hspread : ∀ parents parents', List.Forall₂ (related wave.table) parents parents' →
        Agree (Beside related database database') Eq (spread parents) (spread' parents') := by
      intro parents parents' hparents
      refine (agree_answerDelete hrelated waves wave hparents child foreignKey).bind
        fun next _ heq => ?_
      subst heq
      split
      · exact ih waves
      · exact (ih _).bind fun more _ heq => agree_pure (heq ▸ rfl)
    exact Agree.ite ((agree_rows_beside _).bind hspread)
      ((agree_pure (hbeside.rows wave.table)).bind hspread)

theorem agree_deleteDepth (level waves : List Wave) : Agree (Beside related database database') Eq
    (deleteDepth database level waves) (deleteDepth database' level waves) := by
  induction level generalizing waves with
  | nil => exact agree_pure rfl
  | cons wave level ih =>
    unfold deleteDepth
    refine agree_get.bind fun staged staged' hstaged => ?_
    rw [OrderedMap.contains_congr hstaged.tables, hbeside.referencing]
    refine (agree_spreadDelete hrelated hbeside wave _ _ waves).bind fun next _ heq => ?_
    subst heq
    exact (ih _).bind fun more _ heq => agree_pure (heq ▸ rfl)

theorem agree_deleteWaves (depths : Nat) (level waves : List Wave) :
    Agree (Beside related database database') Eq (deleteWaves database limit depths level waves)
      (deleteWaves database' limit depths level waves) := by
  induction depths generalizing level waves with
  | zero =>
    cases level with
    | nil => exact agree_pure rfl
    | cons _ _ => exact agree_throw _
  | succ depths ih =>
    cases level with
    | nil => exact agree_pure rfl
    | cons wave level =>
      refine (agree_deleteDepth hrelated hbeside _ waves).bind fun next _ heq => ?_
      subst heq
      exact ih next _

theorem agree_delete (positions : List Nat) : Agree (Beside related database database') Eq
    (delete database limit table positions) (delete database' limit table positions) := by
  unfold delete
  refine (agree_deleteWaves hrelated hbeside _ _ _).bind fun waves _ heq => ?_
  subst heq
  refine (agree_forM fun other => Agree.ite ?_ (agree_pure rfl)).bind fun _ _ _ => agree_pure rfl
  refine (agree_rows_beside other).bind fun rows rows' hrows => agree_setRows_beside ?_
  exact forall₂_rowsExcept hrows.length_eq fun position row row' _ =>
    (forall₂_iff_getElem?.mp hrows).2 position row row'

/-! ## UPDATE -/

omit hbeside in
theorem agree_answerUpdate {revision revision' : Revision} (h : Revision.Beside related revision revision')
    (child : Text) (foreignKey : ForeignKey) :
    Agree (Beside related database database') (Option.Rel (Revision.Beside related))
      (answerUpdate database revision child foreignKey)
      (answerUpdate database' revision' child foreignKey) := by
  unfold answerUpdate
  have hkeys := changedKeys_congr foreignKey (h.changes.imp fun _ _ hchange =>
    ⟨(hrelated _).sameValues _ _ hchange.1, (hrelated _).sameValues _ _ hchange.2⟩)
  rw [← hkeys, h.table]
  refine (agree_rows_beside child).bind fun children children' hchildren => ?_
  rw [← referringTo_congr foreignKey _ ((hrelated _).forall₂_sameValues hchildren)]
  refine Agree.ite (agree_pure .none) (Agree.ite (agree_throw _) ?_)
  have hfollow : ∀ row row', related child row row' → related child
      (followKey foreignKey (changedKeys foreignKey revision.changes) row)
      (followKey foreignKey (changedKeys foreignKey revision.changes) row') :=
    fun _ _ => related_followKey (hrelated child) foreignKey _
  refine (agree_setRows_beside (forall₂_changeAt_congr hchildren _ hfollow)).bind
    fun _ _ _ => agree_pure (.some ⟨rfl, ?_⟩)
  exact List.rel_map (fun row row' hrow => ⟨hrow, hfollow row row' hrow⟩) (forall₂_rowsAt hchildren _)

omit hbeside in
theorem agree_spreadUpdate {revision revision' : Revision} (h : Revision.Beside related revision revision')
    (references : List (Text × ForeignKey)) :
    Agree (Beside related database database') (List.Forall₂ (Revision.Beside related))
      (spreadUpdate database revision references) (spreadUpdate database' revision' references) := by
  induction references with
  | nil => exact agree_pure .nil
  | cons reference references ih =>
    refine (agree_answerUpdate hrelated h reference.1 reference.2).bind
      fun next next' hnext => ih.bind fun more more' hmore => agree_pure ?_
    cases hnext with
    | none => exact hmore
    | some hanswered => exact .cons hanswered hmore

theorem agree_updateDepth {level level' : List Revision}
    (h : List.Forall₂ (Revision.Beside related) level level') :
    Agree (Beside related database database') (List.Forall₂ (Revision.Beside related))
      (updateDepth database level) (updateDepth database' level') := by
  induction h with
  | nil => exact agree_pure .nil
  | @cons revision revision' _ _ hrevision _ ih =>
    unfold updateDepth
    rw [hrevision.table, hbeside.referencing]
    exact (agree_spreadUpdate hrelated hrevision _).bind fun next next' hnext =>
      ih.bind fun more more' hmore => agree_pure (List.rel_append hnext hmore)

theorem agree_updateTables (depths : Nat) {level level' : List Revision}
    (h : List.Forall₂ (Revision.Beside related) level level') :
    Agree (Beside related database database') Eq (updateTables database limit depths level)
      (updateTables database' limit depths level') := by
  induction depths generalizing level level' with
  | zero =>
    cases h with
    | nil => exact agree_pure rfl
    | cons _ _ => exact agree_throw _
  | succ depths ih =>
    cases h with
    | nil => exact agree_pure rfl
    | cons hfirst hrest =>
      have hlevel := List.Forall₂.cons hfirst hrest
      have htables := map_eq_of_forall₂ (fun _ _ hrevision => hrevision.table.symm) hlevel
      unfold updateTables
      rw [htables]
      exact (agree_updateDepth hrelated hbeside hlevel).bind fun next next' hnext =>
        (ih hnext).bind fun more _ heq => agree_pure (heq ▸ rfl)

theorem agree_update {changes changes' : List Change}
    (h : List.Forall₂ (Change.Beside (related table)) changes changes') :
    Agree (Beside related database database') Eq (update database limit table changes)
      (update database' limit table changes') := by
  unfold update
  refine (agree_rows_beside table).bind fun staged staged' hstaged => ?_
  refine (agree_setRows_beside (forall₂_replaceAt hstaged h)).bind fun _ _ _ => ?_
  have hfirst : Revision.Beside related ⟨table, changes.map fun change => (change.before, change.after)⟩
      ⟨table, changes'.map fun change => (change.before, change.after)⟩ :=
    ⟨rfl, List.rel_map (fun _ _ hchange => ⟨hchange.before, hchange.after⟩) h⟩
  refine (agree_updateTables hrelated hbeside _ (.cons hfirst .nil)).bind fun touched _ heq => ?_
  subst heq
  refine (agree_forM fun other => ?_).bind fun _ _ _ => agree_pure h.length_eq
  refine (agree_validateKeys hrelated hbeside).bind fun _ _ _ => ?_
  exact (agree_rows_beside other).bind fun rows rows' hrows =>
    agree_checkForeignKeys hrelated hbeside ((hrelated other).forall₂_sameValues hrows)

end Integrity

end SnapshotSql
