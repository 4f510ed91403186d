import SnapshotSql.Proofs.SingleRevisions

/-! # The tables that an UPDATE reaches

The first revision replaces the rows that the UPDATE names. All others come from references, which lead
from a table to those behind it or to itself, so no table in front is revised, and the table of the
UPDATE is revised again only through its own references to itself.
-/
namespace SnapshotSql

namespace Integrity

open Row (AgreeOn)

variable {database : Database} {first last : Revising} {questions : List (Question Revision)}
  {question : Question Revision} {revisions : List Revision} {table target : Text}
  {columns : Text → Prop} {changes : List Change} {after : Scratch} {foreignKey : ForeignKey}

/-! ## Replaced rows -/

theorem replaceAt_cons (rows : List Row) (replacement : Nat × Row) (replacements : List (Nat × Row)) :
    replaceAt rows (replacement :: replacements) =
      replaceAt (rows.set replacement.1 replacement.2) replacements := rfl

theorem getElem?_replaceAt_of_ne {rows : List Row} {replacements : List (Nat × Row)} {position : Nat}
    (h : ∀ replacement ∈ replacements, replacement.1 ≠ position) :
    (replaceAt rows replacements)[position]? = rows[position]? := by
  induction replacements generalizing rows with
  | nil => rfl
  | cons replacement replacements ih =>
    obtain ⟨hfirst, hrest⟩ := List.forall_mem_cons.mp h
    rw [replaceAt_cons, ih hrest, List.getElem?_set_ne hfirst]

theorem length_replaceAt (rows : List Row) (replacements : List (Nat × Row)) :
    (replaceAt rows replacements).length = rows.length := by
  induction replacements generalizing rows with
  | nil => rfl
  | cons replacement replacements ih => rw [replaceAt_cons, ih, List.length_set]

/-- The row at the place of a change is the one that it makes. -/
theorem getElem?_replaceAt_of_mem {rows : List Row} (h : ChangesOf rows changes) {change : Change}
    (hchange : change ∈ changes) :
    (replaceAt rows (changes.map fun change => (change.position, change.after)))[change.position]? =
      some change.after := by
  obtain ⟨hsorted, hbefore⟩ := h
  have hlength := (List.getElem?_eq_some_iff.mp (hbefore change hchange)).1
  clear hbefore
  induction changes generalizing rows with
  | nil => cases hchange
  | cons first changes ih =>
    obtain ⟨hlater, hsorted⟩ := List.pairwise_cons.mp hsorted
    rw [List.map_cons, replaceAt_cons]
    rcases List.mem_cons.mp hchange with rfl | hmem
    · rw [getElem?_replaceAt_of_ne, List.getElem?_set_self hlength]
      intro replacement hreplacement
      obtain ⟨other, hother, rfl⟩ := List.mem_map.mp hreplacement
      exact Nat.ne_of_gt (hlater other hother)
    · exact ih hmem hsorted (by simpa using hlength)

/-! ## Runs of an UPDATE -/

def startOf (database : Database) (table : Text) (changes : List Change) : Revising :=
  ⟨[⟨table, changes.map Change.rows⟩], OrderedMap.empty.insert table
    (replaceAt (database.tableRows table) (changes.map fun change => (change.position, change.after)))⟩

/-- An UPDATE that is not refused, with its revisions and the tables that it stages. -/
structure UpdateRun (database : Database) (table : Text) (changes : List Change)
    (revisions : List Revision) (after : Scratch) : Prop where
  changesOf : ChangesOf (database.tableRows table) changes
  trace : UpdateTrace database (startOf database table changes)
    (revisions.flatMap (Revision.questions database)) ⟨revisions, after⟩

theorem UpdateTrace.place_le (h : UpdateTrace database first questions last)
    (hlisted : database.Listed) (hbuilt : database.WellBuilt) {place : Nat}
    (hfirst : ∀ revision ∈ first.revisions, place ≤ database.place revision.table) :
    ∀ revision ∈ last.revisions, place ≤ database.place revision.table := by
  refine h.invariant (fun revising => ∀ revision ∈ revising.revisions,
    place ≤ database.place revision.table) (fun before question after hstep hbefore => ?_) hfirst
  rw [hstep.revisions_eq]
  refine List.forall_mem_append.mpr ⟨hbefore, fun revision hrevision => ?_⟩
  have hasked := hbefore question.about hstep.revision_mem
  rw [← hstep.refTable_eq] at hasked
  rw [Question.table_of_mem_revisions hrevision]
  by_cases hself : question.foreignKey.refTable = question.child
  · rwa [← hself]
  · exact Nat.le_trans hasked (Nat.le_of_lt (hlisted.place_lt hbuilt hstep.foreignKey_mem hself))

theorem startOf_rows_of_ne (hne : table ≠ target) :
    (startOf database target changes).rows database table = database.tableRows table := by
  simp only [startOf, Revising.rows, Staging.rowsIn_insert, if_neg hne, Staging.rowsIn_empty]

theorem startOf_rows : (startOf database target changes).rows database target =
    replaceAt (database.tableRows target) (changes.map fun change => (change.position, change.after)) := by
  simp only [startOf, Revising.rows, Staging.rowsIn_insert, if_true]

namespace UpdateRun

variable (h : UpdateRun database target changes revisions after)
include h

theorem head_eq : ∃ later, revisions = ⟨target, changes.map Change.rows⟩ :: later := by
  obtain ⟨later, hlater⟩ := h.trace.revisions_prefix
  exact ⟨later, hlater.symm⟩

theorem rows_eq (table : Text) : Staging.rowsIn database after table =
    ((startOf database target changes).rows database table).map
      (moves table (revisions.flatMap (Revision.questions database))) :=
  h.trace.rows_eq table

/-- No other table that the table of the UPDATE refers to is revised. -/
theorem table_ne_of_ne_target (hlisted : database.Listed) (hbuilt : database.WellBuilt)
    (hforeign : foreignKey ∈ database.foreignKeys target) (hne : foreignKey.refTable ≠ target) :
    ∀ revision ∈ revisions, revision.table ≠ foreignKey.refTable := by
  intro revision hrevision htable
  have hplace := h.trace.place_le hlisted hbuilt
    (List.forall_mem_singleton.mpr (Nat.le_refl (database.place target))) revision hrevision
  rw [htable] at hplace
  exact absurd (hlisted.place_lt hbuilt hforeign hne) (Nat.not_lt.mpr hplace)

/-- The table of the UPDATE is asked about its own revisions only. -/
theorem refTable_eq_target (hlisted : database.Listed) (hbuilt : database.WellBuilt)
    (hquestion : question ∈ revisions.flatMap (Revision.questions database))
    (hchild : question.child = target) : question.foreignKey.refTable = target := by
  obtain ⟨revision, hrevision, hasked⟩ := List.mem_flatMap.mp hquestion
  obtain ⟨-, hforeign, htable⟩ := (mem_questionsAbout ..).mp hasked
  by_contra hne
  exact h.table_ne_of_ne_target hlisted hbuilt (hchild ▸ hforeign) hne revision hrevision htable.symm

/-- The first revision is the only one of columns that the table uses in no reference to itself. -/
theorem revisedOnce_target (hlisted : database.Listed) (hbuilt : database.WellBuilt)
    (hself : ∀ foreignKey ∈ database.foreignKeys target, foreignKey.refTable = target →
      ∀ column ∈ foreignKey.columns, ¬ columns column) :
    RevisedOnce revisions target columns (database.tableRows target)
      (Staging.rowsIn database after target) (changes.map Change.rows) := by
  have hidle : ∀ question ∈ revisions.flatMap (Revision.questions database),
      question.Idle target columns := by
    intro question hquestion hchild
    obtain ⟨revision, hrevision, hasked⟩ := List.mem_flatMap.mp hquestion
    obtain ⟨-, hforeign, -⟩ := (mem_questionsAbout ..).mp hasked
    exact Or.inr (hself _ (hchild ▸ hforeign) (h.refTable_eq_target hlisted hbuilt hquestion hchild))
  have hkept := agreeOn_moves_of_idle hidle
  refine ⟨fun foreignKey htable hcolumns => h.trace.rekeys_of_idle hidle htable hcolumns, ?_,
    fun change hchange => ?_, fun position row other hrow hother => ?_⟩
  · rw [h.rows_eq, List.length_map, startOf_rows, length_replaceAt]
  · obtain ⟨change, hmem, rfl⟩ := List.mem_map.mp hchange
    refine ⟨change.position, change.before, _, h.changesOf.2 change hmem, ?_, AgreeOn.refl _,
      hkept change.after⟩
    rw [h.rows_eq, List.getElem?_map, startOf_rows, getElem?_replaceAt_of_mem h.changesOf hmem]
    rfl
  · rw [h.rows_eq, List.getElem?_map, startOf_rows] at hother
    by_cases hchanged : ∃ change ∈ changes, change.position = position
    · obtain ⟨change, hmem, rfl⟩ := hchanged
      rw [getElem?_replaceAt_of_mem h.changesOf hmem] at hother
      cases hother
      cases hrow.symm.trans (h.changesOf.2 change hmem)
      exact Or.inr ⟨_, List.mem_map_of_mem hmem, AgreeOn.refl _, hkept change.after⟩
    · rw [getElem?_replaceAt_of_ne, hrow] at hother
      · cases hother
        exact Or.inl (hkept row)
      · intro replacement hreplacement
        obtain ⟨change, hmem, rfl⟩ := List.mem_map.mp hreplacement
        exact fun heq => hchanged ⟨change, hmem, heq⟩

end UpdateRun

theorem exists_updateRun {limit : Int} {count : Nat} {next : Database}
    (hchanges : ChangesOf (database.tableRows target) changes)
    (h : database.publish (update database limit target changes) = .ok (count, next)) :
    ∃ revisions after, UpdateRun database target changes revisions after ∧
      ∀ table, next.tableRows table = Staging.rowsIn database after table := by
  obtain ⟨after, hruns, rfl⟩ := Database.publish_eq_ok.mp h
  obtain ⟨-, revisions, htrace, -⟩ := trace_of_update hruns
  exact ⟨revisions, after, ⟨hchanges, htrace⟩, Database.tableRows_commit database after⟩

end Integrity

/-- An UPDATE statement that succeeds publishes the changes that its assignments make to its table. -/
theorem Database.of_update_eq_ok {database : Database} {limit : Int} {update : Update}
    {outcome : Outcome} (hlisted : database.Listed) (h : database.update limit update = .ok outcome) :
    ∃ schema changes count, database.schemas.get? update.table = some schema ∧
      (∀ assignment ∈ update.assignments, assignment.column ∈ schema.columnNames) ∧
      changesFrom schema update 0 (database.tableRows update.table) = .ok changes ∧
      Integrity.ChangesOf (database.tableRows update.table) changes ∧
      database.publish (Integrity.update database limit update.table changes) =
        .ok (count, outcome.snapshot database) := by
  unfold Database.update at h
  obtain ⟨schema, hschema, h⟩ := Check.bind_eq_ok.mp h
  obtain ⟨_, hcolumns, h⟩ := Check.bind_eq_ok.mp h
  obtain ⟨changes, hchanges, h⟩ := Check.bind_eq_ok.mp h
  obtain ⟨⟨count, next⟩, hnext, h⟩ := Check.bind_eq_ok.mp h
  cases h
  rw [Check.orFail_eq_ok, Check.forM_eq_ok] at hcolumns
  rw [Check.orFail_eq_ok, Database.requireTable_eq_ok] at hschema
  rw [hlisted.named _ _ hschema] at hchanges hnext
  obtain ⟨hsorted, hbefore⟩ := mem_changesFrom hchanges
  exact ⟨schema, changes, count, hschema,
    fun assignment hmem => TableSchema.requireColumn_eq_ok.mp (hcolumns assignment hmem), hchanges,
    ⟨hsorted, fun change hmem => (hbefore change hmem).2⟩, hnext⟩

end SnapshotSql
