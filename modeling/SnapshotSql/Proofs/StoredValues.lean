import SnapshotSql.Proofs.FittingValues
import SnapshotSql.Proofs.ReferencesFollow
import SnapshotSql.Proofs.TypedRows

/-! # What stored values fit

The rows of an INSERT and those that an UPDATE replaces are cast to the columns of their table, and
counters are integers in INT columns. A value that follows a key is not cast: it is copied from the
column that the reference points at, whose type may be another one. So every stored value fits its own
column or has come along cascading references from a place that it fits.
-/
namespace SnapshotSql

namespace Database

variable {database before after : Database} {table name : Text} {schema : TableSchema}
  {value : Scalar} {row : Row}

/-! ## Admitted values -/

/-- The type of a column of a table; a column of a view is not held to one. -/
def columnType? (database : Database) (table name : Text) : Option ColumnType :=
  (database.schemas.get? table).bind fun schema =>
    if schema.isView then none else (schema.column? name).map (·.type)

/-- The values that a snapshot may store in a table under a name: those that fit the column, and those
that a cascading reference copies from where it points. A view may store any. -/
inductive Admits (database : Database) : Text → Text → Scalar → Prop where
  | fits {table name : Text} {type : ColumnType} {value : Scalar}
      (htype : database.columnType? table name = some type) (hfits : type.Fits value) :
      Admits database table name value
  | view {table name : Text} {schema : TableSchema} {value : Scalar}
      (hschema : database.schemas.get? table = some schema) (hview : schema.isView = true) :
      Admits database table name value
  | copied {table name refName : Text} {foreignKey : ForeignKey} {value : Scalar}
      (hforeign : foreignKey ∈ database.foreignKeys table)
      (haction : foreignKey.onUpdate = .cascade)
      (hnames : (name, refName) ∈ foreignKey.columns.zip foreignKey.refColumns)
      (hparent : Admits database foreignKey.refTable refName value) :
      Admits database table name value

def AdmitsRow (database : Database) (table : Text) (row : Row) : Prop :=
  ∀ name, row.value name = .null ∨ database.Admits table name (row.value name)

def ValuesAdmitted (database : Database) : Prop :=
  ∀ table, ∀ row ∈ database.tableRows table, database.AdmitsRow table row

theorem columnType?_eq_some (hbuilt : database.WellBuilt)
    (hschema : database.schemas.get? table = some schema) (hview : schema.isView = false)
    {column : Column} (hcolumn : column ∈ schema.columns) :
    database.columnType? table column.name = some column.type := by
  have hfound := column?_eq_some ((hbuilt.schema table schema hschema).names hview) hcolumn
  simp [columnType?, hschema, hview, hfound]

theorem admits_of_fits (hbuilt : database.WellBuilt)
    (hschema : database.schemas.get? table = some schema) {column : Column}
    (hcolumn : column ∈ schema.columns) (hfits : column.type.Fits value) :
    database.Admits table column.name value := by
  cases hview : schema.isView with
  | false => exact .fits (columnType?_eq_some hbuilt hschema hview hcolumn) hfits
  | true => exact .view hschema hview

/-- What a table admits depends on its schema and on the tables that it refers to. -/
theorem Admits.transfer (kept : Text → Prop)
    (hschemas : ∀ table, kept table → after.schemas.get? table = before.schemas.get? table)
    (htarget : ∀ table, kept table → ∀ foreignKey ∈ before.foreignKeys table,
      kept foreignKey.refTable ∨ ∀ name value, after.Admits foreignKey.refTable name value)
    (h : before.Admits table name value) (htable : kept table) : after.Admits table name value := by
  induction h with
  | fits htype hfits =>
    refine .fits ?_ hfits
    rw [columnType?, hschemas _ htable]
    exact htype
  | view hschema hview => exact .view (hschemas _ htable ▸ hschema) hview
  | copied hforeign haction hnames _ ih =>
    refine .copied ?_ haction hnames ?_
    · rw [mem_foreignKeys, hschemas _ htable, ← mem_foreignKeys]
      exact hforeign
    · rcases htarget _ htable _ hforeign with hkept | hall
      · exact ih hkept
      · exact hall _ _

/-! ## Definitions -/

/-- If only one table is unlike before, admits its rows, and admits more or is not referred to, then all
values are admitted. -/
theorem ValuesAdmitted.of_sameElsewhere {changed : Text} (hvalues : before.ValuesAdmitted)
    (h : SameElsewhere before after changed)
    (hchanged : ∀ row ∈ after.tableRows changed, after.AdmitsRow changed row)
    (htarget : ∀ table, table ≠ changed → ∀ foreignKey ∈ before.foreignKeys table,
      foreignKey.refTable = changed → ∀ name value, after.Admits changed name value) :
    after.ValuesAdmitted := by
  intro table row hrow
  by_cases heq : table = changed
  · subst heq
    exact hchanged row hrow
  · rw [h.rows table heq] at hrow
    refine fun name => (hvalues table row hrow name).imp_right fun hadmits => ?_
    refine hadmits.transfer (· ≠ changed) h.schemas (fun child hchild foreignKey hforeign => ?_) heq
    by_cases href : foreignKey.refTable = changed
    · exact Or.inr (href ▸ htarget child hchild foreignKey hforeign href)
    · exact Or.inl href

/-! ## Writes -/

theorem valuesAdmitted_of_publish {α : Type} {write : Staging α} {answer : α}
    (h : before.publish write = .ok (answer, after))
    (hrows : ∀ table, ∀ row ∈ after.tableRows table, before.AdmitsRow table row) :
    after.ValuesAdmitted := by
  intro table row hrow name
  refine (hrows table row hrow name).imp_right fun hadmits => ?_
  refine hadmits.transfer (fun _ => True) (fun _ _ => ?_) (fun _ _ _ _ => Or.inl trivial) trivial
  rw [schemas_of_publish h]

/-- A row that has been cast to its table fits it. -/
theorem Typed.admitsRow (h : database.Typed table row) (hlisted : database.Listed)
    (hbuilt : database.WellBuilt) : database.AdmitsRow table row := by
  obtain ⟨key, schema, source, hschema, rfl, hcast⟩ := h
  rw [← hlisted.named key schema hschema] at hschema
  intro name
  rw [Row.value]
  cases hget : row.get? name with
  | none => exact Or.inl rfl
  | some value =>
    rcases cast_of_get?_castColumns hcast hget with hfalse | ⟨column, hcolumn, rfl, source, hsource⟩
    · cases hfalse
    · exact Or.inr (admits_of_fits hbuilt hschema hcolumn (Scalar.fits_castTo hsource))

end Database

namespace Integrity

open Row (AgreeOn)

variable {database : Database} {table : Text} {schema : TableSchema} {row : Row}
  {question : Question Revision}

/-- A row with its counters filled holds what it held, and integers in counting columns. -/
theorem of_get?_fillCounters {staged : List Row} {name : Text} {value : Scalar}
    (h : (fillCounters schema staged row).get? name = some value) :
    row.get? name = some value ∨ ∃ column ∈ schema.columns, column.name = name ∧
      column.autoIncrement = true ∧ ∃ next, value = .int next := by
  unfold fillCounters at h
  split at h
  · exact Or.inl h
  · rcases OrderedMap.mem_of_get?_foldl_insert h with hlisted | hfalse
    · obtain ⟨listed, -, hfilled⟩ := List.mem_filterMap.mp hlisted
      obtain ⟨found, hfilled, heq⟩ := Option.map_eq_some_iff.mp hfilled
      cases heq
      rw [← List.foldl_map (f := fun column : Column => (column.name, Scalar.int (nextValue staged column.name)))
        (g := fun (row : Row) entry => row.insert entry.1 entry.2)] at hfilled
      rcases OrderedMap.mem_of_get?_foldl_insert hfilled with hcounter | hold
      · obtain ⟨column, hcolumn, heq⟩ := List.mem_map.mp hcounter
        cases heq
        obtain ⟨hcolumn, hcounts⟩ := List.mem_filter.mp hcolumn
        exact Or.inr ⟨column, hcolumn, rfl, (Bool.and_eq_true_iff.mp hcounts).1, _, rfl⟩
      · exact Or.inl hold
    · cases hfalse

/-- Filling the counters of a row keeps it admitted. -/
theorem admitsRow_fillCounters (hbuilt : database.WellBuilt)
    (hschema : database.schemas.get? table = some schema) (hrow : database.AdmitsRow table row)
    (staged : List Row) : database.AdmitsRow table (fillCounters schema staged row) := by
  intro name
  rw [Row.value]
  cases hget : (fillCounters schema staged row).get? name with
  | none => exact Or.inl rfl
  | some value =>
    rcases of_get?_fillCounters hget with hold | ⟨column, hcolumn, rfl, hcounts, next, rfl⟩
    · simpa only [Row.value, hold] using hrow name
    · have htype := (hbuilt.schema table schema hschema).counters column hcolumn hcounts
      refine Or.inr (Database.admits_of_fits hbuilt hschema hcolumn ?_)
      rw [htype]
      trivial

/-! ## Rows that follow a key -/

/-- A row that moves holds what it held, null, or values of the parents that it follows. -/
theorem admitsRow_move (hforeign : question.foreignKey ∈ database.foreignKeys question.child)
    (hpaired : Paired question.foreignKey)
    (hparents : ∀ change ∈ question.about.changes,
      database.AdmitsRow question.foreignKey.refTable change.2)
    (hrow : database.AdmitsRow question.child row) :
    database.AdmitsRow question.child (question.move row) := by
  unfold Question.move
  split
  case isFalse => exact hrow
  intro name
  by_cases hname : name ∈ question.foreignKey.columns
  case neg =>
    have hagree : AgreeOn (· = name) (followKey question.foreignKey question.keys row) row := by
      refine agreeOn_followKey fun column hcolumn heq => hname (heq ▸ hcolumn)
    rw [hagree.value rfl]
    exact hrow name
  unfold followKey
  split
  · next haction =>
    split
    · next values hvalues =>
      obtain ⟨key, -, hlookup⟩ := Option.bind_eq_some_iff.mp hvalues
      obtain ⟨earlier, later, hsplit, -⟩ := List.lookup_eq_some_iff.mp hlookup
      have hchanged : (key, values) ∈ question.keys := by simp [hsplit]
      obtain ⟨before, parent, hparent, -, -, -, rfl⟩ := mem_changedKeys.mp hchanged
      obtain ⟨refName, hnames⟩ := hpaired.exists_refColumn hname
      rw [Row.value, get?_withReference hpaired row parent hnames, Option.getD_some]
      exact (hparents _ hparent refName).imp_right (.copied hforeign haction hnames)
    · exact hrow name
  · rw [Row.value, get?_nullOut, if_pos hname]
    exact Or.inl rfl

structure Revising.Admitted (database : Database) (revising : Revising) : Prop where
  rows : ∀ table, ∀ row ∈ revising.rows database table, database.AdmitsRow table row
  changes : ∀ revision ∈ revising.revisions, ∀ change ∈ revision.changes,
    database.AdmitsRow revision.table change.2

theorem Revising.Admitted.step {before after : Revising} (hadmitted : before.Admitted database)
    (hbuilt : database.WellBuilt) (h : UpdateStep database before question after) :
    after.Admitted database := by
  have hmove : ∀ row ∈ before.rows database question.child,
      database.AdmitsRow question.child (question.move row) := by
    intro row hrow
    refine admitsRow_move h.foreignKey_mem (hbuilt.paired h.foreignKey_mem) ?_
      (hadmitted.rows question.child row hrow)
    rw [h.refTable_eq]
    exact hadmitted.changes question.about h.revision_mem
  constructor
  · intro table row hrow
    rw [h.rows_eq] at hrow
    obtain ⟨old, hold, rfl⟩ := List.mem_map.mp hrow
    unfold Question.moveIn
    split
    · next hchild =>
      subst hchild
      exact hmove old hold
    · exact hadmitted.rows table old hold
  · rw [h.revisions_eq]
    refine List.forall_mem_append.mpr ⟨hadmitted.changes, fun revision hrevision change hchange => ?_⟩
    obtain ⟨row, hrow, rfl⟩ := Question.exists_of_mem_revisions hrevision hchange
    rw [Question.table_of_mem_revisions hrevision]
    exact hmove row hrow

theorem mem_replaceAt {rows : List Row} {replacements : List (Nat × Row)}
    (h : row ∈ replaceAt rows replacements) :
    row ∈ rows ∨ ∃ replacement ∈ replacements, replacement.2 = row := by
  induction replacements generalizing rows with
  | nil => exact Or.inl h
  | cons replacement replacements ih =>
    rw [replaceAt_cons] at h
    rcases ih h with hfirst | ⟨later, hlater, heq⟩
    · rcases List.mem_or_eq_of_mem_set hfirst with hold | rfl
      · exact Or.inl hold
      · exact Or.inr ⟨replacement, List.mem_cons_self, rfl⟩
    · exact Or.inr ⟨later, List.mem_cons_of_mem _ hlater, heq⟩

/-- An UPDATE starts from rows that are stored and from replacements that have been cast. -/
theorem admitted_startOf {changes : List Change} (hvalues : database.ValuesAdmitted)
    (hreplaced : ∀ change ∈ changes, database.AdmitsRow table change.after) :
    (startOf database table changes).Admitted database := by
  constructor
  · intro other row hrow
    by_cases heq : other = table
    · subst heq
      rw [startOf_rows] at hrow
      rcases mem_replaceAt hrow with hold | ⟨_, hmem, rfl⟩
      · exact hvalues other row hold
      · obtain ⟨change, hchange, rfl⟩ := List.mem_map.mp hmem
        exact hreplaced change hchange
    · rw [startOf_rows_of_ne heq] at hrow
      exact hvalues other row hrow
  · refine List.forall_mem_singleton.mpr fun change hchange => ?_
    obtain ⟨replaced, hreplaced', rfl⟩ := List.mem_map.mp hchange
    exact hreplaced replaced hreplaced'

end Integrity

namespace Database

open Integrity

variable {database before after : Database} {table name : Text} {schema : TableSchema}
  {value : Scalar} {row : Row}

/-! ## Transitions -/

theorem ValuesAdmitted.insert {target : Text} {newRows inserted : List Row}
    (hvalues : before.ValuesAdmitted) (hbuilt : before.WellBuilt)
    (h : before.publish (Integrity.insert before target newRows) = .ok (inserted, after))
    (hnew : ∀ row ∈ newRows, before.AdmitsRow target row) : after.ValuesAdmitted := by
  refine valuesAdmitted_of_publish h fun table row hrow => ?_
  obtain ⟨scratch, hruns, rfl⟩ := publish_eq_ok.mp h
  rw [tableRows_commit, (of_insert hruns).1] at hrow
  split at hrow
  · next heq =>
    subst heq
    rcases List.mem_append.mp hrow with hold | hstored
    · exact hvalues table row hold
    · obtain ⟨schema, hschema, given, hgiven, staged, rfl⟩ := exists_of_mem_insert hruns hstored
      exact admitsRow_fillCounters hbuilt hschema (hnew given hgiven) staged
  · exact hvalues table row hrow

theorem ValuesAdmitted.update {limit : Int} {target : Text} {changes : List Change} {count : Nat}
    (hvalues : before.ValuesAdmitted) (hbuilt : before.WellBuilt)
    (hchanges : ChangesOf (before.tableRows target) changes)
    (h : before.publish (Integrity.update before limit target changes) = .ok (count, after))
    (hreplaced : ∀ change ∈ changes, before.AdmitsRow target change.after) : after.ValuesAdmitted := by
  obtain ⟨revisions, scratch, hrun, hrows⟩ := exists_updateRun hchanges h
  have hadmitted := hrun.trace.invariant (Revising.Admitted before)
    (fun _ _ _ hstep hbefore => hbefore.step hbuilt hstep) (admitted_startOf hvalues hreplaced)
  refine valuesAdmitted_of_publish h fun table row hrow => ?_
  rw [hrows] at hrow
  exact hadmitted.rows table row hrow

theorem ValuesAdmitted.delete {limit : Int} {target : Text} {positions : List Nat} {count : Nat}
    (hvalues : before.ValuesAdmitted)
    (h : before.publish (Integrity.delete before limit target positions) = .ok (count, after)) :
    after.ValuesAdmitted := by
  refine valuesAdmitted_of_publish h fun table row hrow name => ?_
  obtain ⟨cleared, removed, hcleared, hrows⟩ := rows_of_delete h table
  rw [hrows] at hrow
  obtain ⟨position, hposition⟩ := List.mem_iff_getElem?.mp ((rowsExcept_sublist ..).subset hrow)
  obtain ⟨old, hold, hrow⟩ := exists_left_of_forall₂ hcleared hposition
  rcases hrow.value name with hsame | hnull
  · rw [hsame]
    exact hvalues table old (List.mem_of_getElem? hold) name
  · exact Or.inl hnull

theorem Transition.valuesAdmitted (h : Transition before after) (hbuilt : before.WellBuilt)
    (hlisted : before.Listed) (hvalues : before.ValuesAdmitted) : after.ValuesAdmitted := by
  cases h with
  | @create definition schema hdefinition hnew hschema =>
    obtain ⟨hname, -, -⟩ := of_buildSchema hdefinition hschema
    refine hvalues.of_sameElsewhere (sameElsewhere_insert ..) ?_ ?_
    · rw [tableRows_addTable]
      exact nofun
    · intro table _ foreignKey hforeign heq
      obtain ⟨target, htarget⟩ := hbuilt.target table foreignKey hforeign
      rw [heq, hname, hnew] at htarget
      cases htarget
  | @view view result _ =>
    have hview : ∀ name value, Database.Admits ⟨view, before.schemas.insert view (viewSchema view result),
        before.rows.insert view result.rows⟩ view name value := by
      intro name value
      have hschema : (before.schemas.insert view (viewSchema view result)).get? view =
          some (viewSchema view result) := by rw [OrderedMap.get?_insert, if_pos rfl]
      exact .view hschema rfl
    refine hvalues.of_sameElsewhere (sameElsewhere_insert ..) ?_ ?_
    · exact fun row _ name => Or.inr (hview name _)
    · exact fun _ _ _ _ _ => hview
  | @drop erased hfree =>
    refine hvalues.of_sameElsewhere (sameElsewhere_eraseTable erased) ?_ ?_
    · intro row hrow
      simp [tableRows, eraseTable, OrderedMap.get?_erase] at hrow
    · intro table hne foreignKey hforeign heq
      exact absurd (hfree table foreignKey hforeign heq) hne
  | insert h htyped =>
    exact hvalues.insert hbuilt h fun row hrow => (htyped row hrow).admitsRow hlisted hbuilt
  | update hchanges h htyped =>
    exact hvalues.update hbuilt hchanges h fun change hchange =>
      (htyped change hchange).admitsRow hlisted hbuilt
  | delete h => exact hvalues.delete h

theorem Reachable.valuesAdmitted (h : database.Reachable) : database.ValuesAdmitted := by
  have hboth : database.Listed ∧ database.ValuesAdmitted := by
    refine h.invariant_of_wellBuilt (fun database => database.Listed ∧ database.ValuesAdmitted)
      ⟨⟨nofun, List.Pairwise.nil⟩, nofun⟩ fun before after hstep hbuilt hbefore => ?_
    exact ⟨hstep.listed hbuilt hbefore.1, hstep.valuesAdmitted hbuilt hbefore.1 hbefore.2⟩
  exact hboth.2

/-! ## Stored values -/

theorem ValuesAdmitted.of_get? (h : database.ValuesAdmitted) (hrow : row ∈ database.tableRows table)
    (hvalue : row.get? name = some value) : value = .null ∨ database.Admits table name value := by
  have hstored : row.value name = value := by rw [Row.value, hvalue, Option.getD_some]
  have hadmits := h table row hrow name
  rwa [hstored] at hadmits

/-- What a table that is no view admits under a name fits the column of that name, or is copied to it. -/
theorem Admits.fits_or_copied (h : database.Admits table name value) (hbuilt : database.WellBuilt)
    (hschema : database.schemas.get? table = some schema) (hview : schema.isView = false) :
    ∃ column ∈ schema.columns, column.name = name ∧ (column.type.Fits value ∨
      ∃ foreignKey ∈ schema.foreignKeys, foreignKey.onUpdate = .cascade ∧ ∃ refName,
        (name, refName) ∈ foreignKey.columns.zip foreignKey.refColumns ∧
        database.Admits foreignKey.refTable refName value) := by
  cases h with
  | fits htype hfits =>
    obtain ⟨column, hfound, rfl⟩ : ∃ column, schema.column? name = some column ∧ column.type = _ := by
      simpa [columnType?, hschema, hview] using htype
    have hname : column.name = name := by simpa using List.find?_some hfound
    exact ⟨column, List.mem_of_find?_eq_some hfound, hname, Or.inl hfits⟩
  | view hother hview' =>
    cases hschema.symm.trans hother
    exact absurd (hview.symm.trans hview') (by decide)
  | copied hforeign haction hnames hparent =>
    obtain ⟨declared, hdeclared, hmem⟩ := (mem_foreignKeys ..).mp hforeign
    cases hschema.symm.trans hdeclared
    obtain ⟨column, hcolumn, rfl⟩ := List.mem_map.mp
      ((hbuilt.schema table schema hschema).declared _ hmem name (List.of_mem_zip hnames).1)
    exact ⟨column, hcolumn, rfl, Or.inr ⟨_, hmem, haction, _, hnames, hparent⟩⟩

/-- All values of a column that a cascading reference points at fit the column that they are copied to. -/
def CascadesWiden (database : Database) : Prop :=
  ∀ table, ∀ foreignKey ∈ database.foreignKeys table, foreignKey.onUpdate = .cascade →
    ∀ names ∈ foreignKey.columns.zip foreignKey.refColumns,
      ∃ refType ∈ database.columnType? foreignKey.refTable names.2,
        ∃ type ∈ database.columnType? table names.1, refType.within type = true

instance (database : Database) : Decidable database.CascadesWiden :=
  decidable_of_iff' _ forall_foreignKeys_iff

/-- Then every admitted value fits its own column. -/
theorem Admits.fits_of_widen (h : database.Admits table name value) (hwiden : database.CascadesWiden)
    {type : ColumnType} (htype : database.columnType? table name = some type) : type.Fits value := by
  induction h generalizing type with
  | fits hfound hfits =>
    cases htype.symm.trans hfound
    exact hfits
  | view hschema hview => simp [columnType?, hschema, hview] at htype
  | copied hforeign haction hnames _ ih =>
    obtain ⟨refType, hrefType, found, hfound, hwithin⟩ := hwiden _ _ hforeign haction _ hnames
    cases htype.symm.trans hfound
    exact ColumnType.within_iff.mp hwithin _ (ih hrefType)

/-- Every stored value that is not null belongs to a column, and it fits the type or is one that a
cascading reference copies to the column. If no such reference narrows types, it fits. -/
theorem stored_fits_or_copied (hreachable : database.Reachable)
    (hschema : database.schemas.get? table = some schema) (hview : schema.isView = false)
    (hrow : row ∈ database.tableRows table) (hvalue : row.get? name = some value) (hsome : value ≠ .null) :
    ∃ column ∈ schema.columns, column.name = name ∧
      (column.type.Fits value ∨ ∃ foreignKey ∈ schema.foreignKeys, foreignKey.onUpdate = .cascade ∧
        ∃ refName, (name, refName) ∈ foreignKey.columns.zip foreignKey.refColumns ∧
          database.Admits foreignKey.refTable refName value) ∧
      (database.CascadesWiden → column.type.Fits value) := by
  have hadmits := (hreachable.valuesAdmitted.of_get? hrow hvalue).resolve_left hsome
  obtain ⟨column, hcolumn, rfl, hfits⟩ := hadmits.fits_or_copied hreachable.wellBuilt hschema hview
  exact ⟨column, hcolumn, rfl, hfits, fun hwiden =>
    hadmits.fits_of_widen hwiden (columnType?_eq_some hreachable.wellBuilt hschema hview hcolumn)⟩

/-- Texts that renumber a parent to which a child refers by a column of another type. -/
def renumberedTexts : List (Int × Text) :=
  [(64, "CREATE TABLE parent(id INT PRIMARY KEY)"),
    (64, "CREATE TABLE child(id INT PRIMARY KEY, x REAL REFERENCES parent(id) ON UPDATE CASCADE)"),
    (64, "INSERT INTO parent VALUES (1)"),
    (64, "INSERT INTO child VALUES (1, 1)"),
    (64, "UPDATE parent SET id = 2")]

def childSchema : TableSchema :=
  ⟨"child", [⟨"id", .int, false, false, false⟩, ⟨"x", .real, false, false, false⟩], ["id"], [],
    [⟨["x"], "parent", ["id"], .restrict, .cascade, none⟩], .column, false⟩

def renumbered : Database :=
  ⟨"child",
    .ofList [
      ("parent", ⟨"parent", [⟨"id", .int, false, false, false⟩], ["id"], [], [], .column, false⟩),
      ("child", childSchema)],
    .ofList [("parent", [.ofList [("id", .int 2)]]), ("child", [.ofList [("id", .int 1), ("x", .int 2)]])]⟩

set_option maxRecDepth 20000 in
theorem renumbered_reachable : renumbered.Reachable :=
  ⟨renumberedTexts, by decide +kernel⟩

/-- A copied value that does not fit, and a reference between columns of one type. -/
theorem stored_fits_or_copied_renumbered :
    (∃ column ∈ childSchema.columns, column.name = "x" ∧
      (column.type.Fits (.int 2) ∨ ∃ foreignKey ∈ childSchema.foreignKeys, foreignKey.onUpdate = .cascade ∧
        ∃ refName, (("x" : Text), refName) ∈ foreignKey.columns.zip foreignKey.refColumns ∧
          renumbered.Admits foreignKey.refTable refName (.int 2))) ∧
    ∃ schema, ladder.schemas.get? "b" = some schema ∧
      ∃ column ∈ schema.columns, column.name = "id" ∧ column.type.Fits (.int 1) := by
  obtain ⟨column, hcolumn, hname, hcopied, -⟩ := stored_fits_or_copied renumbered_reachable
    (rfl : renumbered.schemas.get? "child" = some childSchema) rfl
    (by decide +kernel : .ofList [("id", .int 1), ("x", .int 2)] ∈ renumbered.tableRows "child")
    (rfl : OrderedMap.get? _ "x" = some (Scalar.int 2)) (by decide)
  obtain ⟨other, hother, hid, -, hfits⟩ := stored_fits_or_copied ladder_reachable
    (rfl : ladder.schemas.get? "b" = some _) rfl
    (by decide +kernel : .ofList [("id", .int 1)] ∈ ladder.tableRows "b")
    (rfl : OrderedMap.get? _ "id" = some (Scalar.int 1)) (by decide)
  exact ⟨⟨column, hcolumn, hname, hcopied⟩, _, rfl, other, hother, hid, hfits (by decide +kernel)⟩

/-- It is not so that stored values that are not null always fit their columns. -/
theorem not_every_stored_value_fits : ¬ ∀ (database : Database) (table : Text) (schema : TableSchema)
    (row : Row) (column : Column) (value : Scalar), database.Reachable →
      database.schemas.get? table = some schema → schema.isView = false →
      row ∈ database.tableRows table → column ∈ schema.columns → row.get? column.name = some value →
      value ≠ .null → column.type.Fits value := by
  intro hevery
  have hfits := hevery renumbered "child" childSchema (.ofList [("id", .int 1), ("x", .int 2)])
    ⟨"x", .real, false, false, false⟩ (.int 2) renumbered_reachable rfl rfl (by decide +kernel)
    (by decide) rfl (by decide)
  exact absurd hfits (by decide)

end Database

end SnapshotSql
