import SnapshotSql.Proofs.AssignedReferences
import SnapshotSql.Proofs.IndependentWrites
import SnapshotSql.Proofs.StoredValues

/-! # What an UPDATE leaves as it is

An UPDATE casts every column of a row that it names, assigned or not. So a column that is not assigned
keeps its value only if the value is its own cast. Stored values are, in a table that has no DECIMAL
columns and takes no values over from the tables that it refers to. The references of other tables
follow in waves that run against the references: they reach the tables only from which references lead
to the table of the UPDATE, and there the columns only of such references.
-/
namespace SnapshotSql

/-! ## Assigned rows -/

/-- What an UPDATE makes of a row that it names: assigned columns hold the cast of what the expression
is in the row before, and the other columns what they held. -/
structure Update.Assigns (update : Update) (schema : TableSchema) (row row' : Row) : Prop where
  assigned : ∀ name expression, update.assigned? name = some expression →
    ∃ column ∈ schema.columns, column.name = name ∧ ∃ value,
      (expression.value row).castTo column.type = .ok value ∧ row'.get? name = some value
  kept : ∀ column ∈ schema.columns, update.assigned? column.name = none →
    row'.get? column.name = row.get? column.name

def Update.Replaces (update : Update) (schema : TableSchema) (row row' : Row) : Prop :=
  if update.condition.all (·.holds row) then update.Assigns schema row row' else row' = row

variable {update : Update} {schema : TableSchema} {row row' : Row}

def Row.Fixed (schema : TableSchema) (row : Row) : Prop :=
  ∀ column ∈ schema.columns, ∀ value, row.get? column.name = some value →
    value.castTo column.type = .ok value

theorem Update.assigns_of_assign (hassign : Database.assign schema update.assignments row = .ok row')
    (hnodup : schema.columnNames.Nodup) (hfixed : row.Fixed schema)
    (hcolumns : ∀ assignment ∈ update.assignments, assignment.column ∈ schema.columnNames) :
    update.Assigns schema row row' := by
  constructor
  · intro name expression hexpression
    obtain ⟨column, hcolumn, rfl⟩ := Database.exists_assigned_column hcolumns hexpression
    exact ⟨column, hcolumn, rfl, Database.get?_assign hassign hnodup hcolumn hexpression⟩
  · intro column hcolumn hnone
    have hsource := get?_foldl_assignments update.assignments row row column.name
    rw [Option.map_eq_none_iff.mp hnone, Option.map_none, Option.none_or] at hsource
    -- the column is cast all the same, and its value is fixed
    cases hget : row.get? column.name with
    | none => exact get?_castColumns_of_none hassign (hsource.trans hget)
    | some value =>
      obtain ⟨cast, hcast, hresult⟩ := get?_castColumns hassign hnodup hcolumn (hsource.trans hget)
      cases hcast.symm.trans (hfixed column hcolumn value hget)
      exact hresult

namespace Integrity

open Row (AgreeOn)
open Relation (ReflTransGen TransGen)

variable {database : Database} {first last : Revising} {questions : List (Question Revision)}
  {question : Question Revision} {revisions : List Revision} {table target : Text}
  {changes : List Change} {after : Scratch}

/-- Replaced are the rows that the UPDATE names. -/
theorem replaces_replaceAt {rows : List Row} (hchanges : ChangesOf rows changes)
    (hfrom : Database.changesFrom schema update 0 rows = .ok changes)
    (hnodup : schema.columnNames.Nodup) (hfixed : ∀ row ∈ rows, row.Fixed schema)
    (hcolumns : ∀ assignment ∈ update.assignments, assignment.column ∈ schema.columnNames) :
    List.Forall₂ (update.Replaces schema) rows
      (replaceAt rows (changes.map fun change => (change.position, change.after))) := by
  refine forall₂_iff_getElem?.mpr
    ⟨(length_replaceAt ..).symm, fun position row row' hrow hrow' => ?_⟩
  unfold Update.Replaces
  split
  · next hnamed =>
    obtain ⟨change, hchange, hposition, rfl⟩ := Database.exists_mem_changesFrom hfrom hrow hnamed
    have hreplaced := getElem?_replaceAt_of_mem hchanges hchange
    rw [hposition, Nat.zero_add, hrow'] at hreplaced
    cases hreplaced
    obtain ⟨-, hassign⟩ := Database.assign_of_mem_changesFrom hfrom hchange
    exact Update.assigns_of_assign hassign hnodup (hfixed _ (List.mem_of_getElem? hrow)) hcolumns
  · next hother =>
    have hsame : (replaceAt rows (changes.map fun change => (change.position, change.after)))[position]? =
        rows[position]? := by
      refine getElem?_replaceAt_of_ne ?_
      rintro replacement hreplacement rfl
      obtain ⟨change, hchange, rfl⟩ := List.mem_map.mp hreplacement
      cases hrow.symm.trans (hchanges.2 change hchange)
      exact hother (Database.assign_of_mem_changesFrom hfrom hchange).1
    rw [hsame, hrow] at hrow'
    exact (Option.some.inj hrow').symm

/-! ## Tables that the waves reach -/

/-- References lead to a table from all that are revised later, if they do from those revised so far. -/
theorem UpdateTrace.reaches (h : UpdateTrace database first questions last)
    (hfirst : ∀ revision ∈ first.revisions, ReflTransGen database.RefersTo revision.table target) :
    ∀ revision ∈ last.revisions, ReflTransGen database.RefersTo revision.table target := by
  refine h.invariant (fun revising => ∀ revision ∈ revising.revisions,
    ReflTransGen database.RefersTo revision.table target) (fun before question after hstep hbefore => ?_) hfirst
  rw [hstep.revisions_eq]
  refine List.forall_mem_append.mpr ⟨hbefore, fun revision hrevision => ?_⟩
  -- what is new is of the table that was asked, one reference further away
  rw [Question.table_of_mem_revisions hrevision]
  exact .head ⟨_, hstep.foreignKey_mem, hstep.refTable_eq⟩ (hbefore question.about hstep.revision_mem)

theorem moves_of_unasked (h : ∀ question ∈ questions, question.child ≠ table) (row : Row) :
    moves table questions row = row := by
  induction questions with
  | nil => rfl
  | cons question questions ih =>
    obtain ⟨hfirst, hrest⟩ := List.forall_mem_cons.mp h
    change moves table questions (question.moveIn table row) = row
    rw [Question.moveIn, if_neg hfirst]
    exact ih hrest

end Integrity

/-- A column of a table belongs to a reference that leads to another table, at once or through others. -/
def Database.Leads (database : Database) (table target name : Text) : Prop :=
  ∃ foreignKey ∈ database.foreignKeys table, name ∈ foreignKey.columns ∧
    Relation.ReflTransGen database.RefersTo foreignKey.refTable target

namespace Integrity.UpdateRun

open Row (AgreeOn)
open Relation (ReflTransGen TransGen)

variable {database : Database} {question : Question Revision} {revisions : List Revision}
  {table target : Text} {changes : List Change} {after : Scratch}
  (h : UpdateRun database target changes revisions after)

include h

/-- A table is asked through references only that lead to the table of the UPDATE. -/
theorem reaches_of_asked (hquestion : question ∈ revisions.flatMap (Revision.questions database)) :
    question.foreignKey ∈ database.foreignKeys question.child ∧
      ReflTransGen database.RefersTo question.foreignKey.refTable target := by
  obtain ⟨revision, hrevision, hasked⟩ := List.mem_flatMap.mp hquestion
  obtain ⟨-, hforeign, htable⟩ := (mem_questionsAbout ..).mp hasked
  have hreaches := h.trace.reaches (List.forall_mem_singleton.mpr .refl) revision hrevision
  exact ⟨hforeign, htable ▸ hreaches⟩

/-- Without references to itself the table of the UPDATE is not revised again. -/
theorem rows_target (hlisted : database.Listed) (hbuilt : database.WellBuilt)
    (hself : ∀ foreignKey ∈ database.foreignKeys target, foreignKey.refTable ≠ target) :
    Staging.rowsIn database after target = replaceAt (database.tableRows target)
      (changes.map fun change => (change.position, change.after)) := by
  rw [← startOf_rows]
  exact h.rows_of_not_mistaken hlisted hbuilt fun foreignKey hforeign href =>
    absurd href (hself foreignKey hforeign)

/-- A table from which no references lead to that of the UPDATE stays as it is. -/
theorem rows_of_apart (hne : table ≠ target) (hapart : ¬ TransGen database.RefersTo table target) :
    Staging.rowsIn database after table = database.tableRows table := by
  rw [h.rows_eq, startOf_rows_of_ne hne]
  refine List.map_id'' (moves_of_unasked fun question hquestion hchild => ?_) _
  obtain ⟨hforeign, hreaches⟩ := h.reaches_of_asked hquestion
  exact hapart (.head' ⟨_, hchild ▸ hforeign, rfl⟩ hreaches)

/-- Any other table keeps what it holds under columns without references to that of the UPDATE. -/
theorem agreeOn_rows (hne : table ≠ target) :
    List.Forall₂ (AgreeOn fun name => ¬ database.Leads table target name)
      (database.tableRows table) (Staging.rowsIn database after table) := by
  rw [h.rows_eq, startOf_rows_of_ne hne, List.forall₂_map_right_iff]
  refine List.forall₂_same.mpr fun row _ => (agreeOn_moves_of_idle (fun question hquestion hchild => ?_) row).symm
  obtain ⟨hforeign, hreaches⟩ := h.reaches_of_asked hquestion
  exact Or.inr fun column hcolumn happart => happart ⟨_, hchild ▸ hforeign, hcolumn, hreaches⟩

end Integrity.UpdateRun

namespace Database

open Integrity
open Row (AgreeOn)

variable {database : Database} {limit : Int} {outcome : Outcome} {table : Text}

/-! ## Stored values -/

/-- In a table that neither rounds nor takes values over, stored values are their own casts. -/
theorem ValuesAdmitted.fixed (hvalues : database.ValuesAdmitted) (hbuilt : database.WellBuilt)
    (hschema : database.schemas.get? table = some schema) (hview : schema.isView = false)
    (hdecimal : ∀ column ∈ schema.columns, column.type.typeName ≠ .decimal)
    (hforeign : ∀ foreignKey ∈ schema.foreignKeys, foreignKey.onUpdate ≠ .cascade)
    (hrow : row ∈ database.tableRows table) : row.Fixed schema := by
  intro column hcolumn value hvalue
  have htype := columnType?_eq_some hbuilt hschema hview hcolumn
  apply Scalar.castTo_of_fits (hdecimal column hcolumn)
  rcases hvalues.of_get? hrow hvalue with rfl | hadmits
  · cases column.type <;> trivial
  · cases hadmits with
    | fits hfound hfits =>
      cases htype.symm.trans hfound
      exact hfits
    | view hother hview' =>
      cases hschema.symm.trans hother
      exact absurd (hview.symm.trans hview') (by decide)
    | copied hmem haction =>
      obtain ⟨declared, hdeclared, hmem⟩ := (mem_foreignKeys ..).mp hmem
      cases hschema.symm.trans hdeclared
      exact absurd haction (hforeign _ hmem)

/-- An UPDATE of a base table without DECIMAL columns, references to itself and cascading references of
its own replaces the rows that it names, each at its place: assigned columns hold the cast of the
expression in the row before, and the other columns what they held. Every other table keeps its rows,
each at its place, and what they hold under columns that belong to no reference that leads to the table
of the UPDATE. A table from which no references lead there stays just as it is. -/
theorem rows_after_update (hreachable : database.Reachable)
    (hschema : database.schemas.get? update.table = some schema) (hview : schema.isView = false)
    (hdecimal : ∀ column ∈ schema.columns, column.type.typeName ≠ .decimal)
    (hself : ∀ foreignKey ∈ schema.foreignKeys, foreignKey.refTable ≠ update.table)
    (hcascade : ∀ foreignKey ∈ schema.foreignKeys, foreignKey.onUpdate ≠ .cascade)
    (hupdate : database.update limit update = .ok outcome) :
    List.Forall₂ (update.Replaces schema) (database.tableRows update.table)
        ((outcome.snapshot database).tableRows update.table) ∧
      ∀ other, other ≠ update.table →
        List.Forall₂ (AgreeOn fun name => ¬ database.Leads other update.table name)
          (database.tableRows other) ((outcome.snapshot database).tableRows other) ∧
        (¬ Relation.TransGen database.RefersTo other update.table →
          (outcome.snapshot database).tableRows other = database.tableRows other) := by
  have hlisted := hreachable.listed
  have hbuilt := hreachable.wellBuilt
  obtain ⟨declared, changes, count, hdeclared, hcolumns, hfrom, hchanges, hpublish⟩ :=
    of_update_eq_ok hlisted hupdate
  cases hdeclared.symm.trans hschema
  obtain ⟨revisions, after, h, hafter⟩ := exists_updateRun hchanges hpublish
  constructor
  · have hapart : ∀ foreignKey ∈ database.foreignKeys update.table, foreignKey.refTable ≠ update.table := by
      intro foreignKey hforeign
      obtain ⟨found, hfound, hmem⟩ := (mem_foreignKeys ..).mp hforeign
      cases hschema.symm.trans hfound
      exact hself foreignKey hmem
    rw [hafter, h.rows_target hlisted hbuilt hapart]
    refine replaces_replaceAt hchanges hfrom ((hbuilt.schema _ schema hschema).names hview)
      (fun row hrow => ?_) hcolumns
    exact hreachable.valuesAdmitted.fixed hbuilt hschema hview hdecimal hcascade hrow
  · intro other hne
    rw [hafter]
    exact ⟨h.agreeOn_rows hne, h.rows_of_apart hne⟩

def transfer : Update :=
  ⟨"player", [⟨"team", .operand (.literal (.int 1))⟩],
    some (.compare (.column "id") .equal (.literal (.int 2)))⟩

/-- A player is moved while teams stay as they are, and keys are exchanged that other rows refer to. -/
theorem rows_after_transfer_and_exchange :
    (∃ schema outcome, league.schemas.get? "player" = some schema ∧
      league.update 64 transfer = .ok outcome ∧
      List.Forall₂ (transfer.Replaces schema) (league.tableRows "player")
        ((outcome.snapshot league).tableRows "player") ∧
      (outcome.snapshot league).tableRows "team" = league.tableRows "team") ∧
    ∃ schema outcome, ladder.schemas.get? "a" = some schema ∧
      ladder.update 64 (exchange "a") = .ok outcome ∧
      List.Forall₂ ((exchange "a").Replaces schema) (ladder.tableRows "a")
        ((outcome.snapshot ladder).tableRows "a") ∧
      List.Forall₂ (AgreeOn fun name => ¬ ladder.Leads "b" "a" name) (ladder.tableRows "b")
        ((outcome.snapshot ladder).tableRows "b") := by
  constructor
  · have hok : (league.update 64 transfer).isOk = true := by decide +kernel
    obtain ⟨outcome, h⟩ := Check.exists_of_isOk hok
    obtain ⟨hplayers, hothers⟩ := rows_after_update league_reachable
      (rfl : league.schemas.get? transfer.table = some _) rfl (by decide) (by decide) (by decide) h
    refine ⟨_, outcome, rfl, h, hplayers, (hothers "team" (by decide)).2 ?_⟩
    rw [Relation.TransGen.head'_iff]
    rintro ⟨_, ⟨foreignKey, hforeign, -⟩, -⟩
    have hnone : league.foreignKeys "team" = [] := by decide +kernel
    rw [hnone] at hforeign
    cases hforeign
  · have hok : (ladder.update 64 (exchange "a")).isOk = true := by decide +kernel
    obtain ⟨outcome, h⟩ := Check.exists_of_isOk hok
    obtain ⟨hkeys, hothers⟩ := rows_after_update ladder_reachable
      (rfl : ladder.schemas.get? (exchange "a").table = some _) rfl (by decide) (by decide) (by decide) h
    exact ⟨_, outcome, rfl, h, hkeys, (hothers "b" (by decide)).1⟩

end Database

end SnapshotSql
