import SnapshotSql.Proofs.IndependentWrites
import SnapshotSql.Proofs.ReferenceTargets
import SnapshotSql.Proofs.SelectedColumns

/-! # Views keep the result that they were created from

CREATE VIEW stores the rows of a result under a schema that lists the columns of the result and declares
no references. So a star on the view gives the result back. No cascade reaches a view, since a cascade
goes from a table to those that refer to it, and definitions enter tables under new names only. What a
view shows is therefore changed by statements only that name the view itself.
-/
namespace SnapshotSql

/-- The table or view that a statement replaces, drops or writes. A CREATE TABLE enters a new name. -/
def Statement.changed? : Statement → Option Text
  | .createView definition => some definition.view
  | .dropTable drop => some drop.table
  | statement => statement.written?

namespace Database

variable {database : Database} {view table : Text} {result : QueryResult} {query : Select} {limit : Int}
  {statement : Statement} {outcome : Outcome} {tables : Text → Prop}

/-- A text that, if it is run as one statement, does not replace, drop or write a view. -/
def Spares (view sql : Text) : Prop :=
  ∀ statement, RunsAs sql statement → statement.changed? ≠ some view

theorem spares_of_parse {sql : Text} (h : parse (Text.trim (SourceText.withoutComments sql)) = .ok statement)
    (hother : statement.changed? ≠ some view) : Spares view sql := by
  intro read hruns
  rw [Except.ok.inj (hruns.parsed.symm.trans h)]
  exact hother

/-! ## What a write publishes -/

theorem exists_commit_of_publish {α : Type} {write : Staging α} {respond : α × Database → Except Failure Outcome}
    (hstages : Staging.Stages tables write fun _ => True) (hrespond : PublishesNext respond)
    (h : (database.publish write >>= respond) = .ok outcome) :
    ∃ scratch : Scratch, (∀ other ∈ scratch.names, tables other) ∧
      outcome.snapshot database = database.commit scratch := by
  obtain ⟨⟨answer, next⟩, hpublish, h⟩ := Check.bind_eq_ok.mp h
  obtain ⟨scratch, hruns, rfl⟩ := publish_eq_ok.mp hpublish
  obtain ⟨result, hresult⟩ := hrespond answer
  cases (hresult _).symm.trans h
  exact ⟨scratch, fun other hother => hstages.names hruns hother, rfl⟩

/-- A write that succeeds publishes tables only of any collection that no reference leads into and that its
own table belongs to. -/
theorem exists_commit_of_written (hclosed : Integrity.ClosedUnder database tables)
    (hnamed : ∀ name schema, database.schemas.get? name = some schema → schema.name = name)
    (hwritten : statement.written? = some table) (htable : tables table)
    (h : database.run limit statement = .ok outcome) :
    ∃ scratch : Scratch, (∀ other ∈ scratch.names, tables other) ∧
      outcome.snapshot database = database.commit scratch := by
  have hfound : ∀ {name : Text} {schema : TableSchema}, orFail (database.requireTable name) = .ok schema →
      schema.name = name :=
    fun hschema => hnamed _ _ (requireTable_eq_ok.mp (Check.orFail_eq_ok.mp hschema))
  cases statement with
  | insert insertion =>
    cases hwritten
    obtain ⟨schema, hschema, h⟩ := Check.bind_eq_ok.mp h
    rw [← hfound hschema] at htable
    obtain ⟨_, -, h⟩ := Check.bind_eq_ok.mp h
    obtain ⟨rows, -, h⟩ := Check.bind_eq_ok.mp h
    refine exists_commit_of_publish (Integrity.stages_insert htable rows) (fun inserted => ?_) h
    rcases inserted with _ | ⟨row, _ | ⟨_, _⟩⟩ <;> exact ⟨_, fun _ => rfl⟩
  | update change =>
    cases hwritten
    obtain ⟨schema, hschema, h⟩ := Check.bind_eq_ok.mp h
    rw [← hfound hschema] at htable
    obtain ⟨_, -, h⟩ := Check.bind_eq_ok.mp h
    obtain ⟨changes, -, h⟩ := Check.bind_eq_ok.mp h
    exact exists_commit_of_publish (Integrity.stages_update hclosed htable changes) (fun _ => ⟨_, fun _ => rfl⟩) h
  | delete deletion =>
    cases hwritten
    obtain ⟨schema, hschema, h⟩ := Check.bind_eq_ok.mp h
    rw [← hfound hschema] at htable
    exact exists_commit_of_publish (Integrity.stages_delete hclosed htable _) (fun _ => ⟨_, fun _ => rfl⟩) h
  | _ => cases hwritten

/-! ## What a view shows -/

/-- A view is stored as it was created from a result. That schemas have the names under which they are
listed is kept along with it. -/
structure Shows (database : Database) (view : Text) (result : QueryResult) : Prop where
  schema : database.schemas.get? view = some (viewSchema view result)
  rows : database.tableRows view = result.rows
  named : ∀ name schema, database.schemas.get? name = some schema → schema.name = name

/-- A star on a view gives back the result, whose rows list its columns. -/
theorem Shows.select (h : database.Shows view result) (hdistinct : result.columns.Nodup)
    (hrows : ∀ row ∈ result.rows, row.names = result.columns) :
    database.select (.everything view) = .ok result := by
  have hcolumns := columnNames_viewSchema view result
  rw [select_everything h.schema (hcolumns ▸ hdistinct) (by rwa [h.rows, hcolumns]), hcolumns, h.rows]

theorem Shows.closedUnder (h : database.Shows view result) :
    Integrity.ClosedUnder database (· ≠ view) := by
  rintro table - ⟨child, foreignKey⟩ hreference rfl
  obtain ⟨hforeign, -⟩ := (mem_referencing ..).mp hreference
  obtain ⟨schema, hschema, hmem⟩ := (mem_foreignKeys ..).mp hforeign
  rw [h.schema] at hschema
  cases hschema
  cases hmem

/-- Another table or view is entered, or replaced. -/
theorem Shows.enter {schema : TableSchema} (h : database.Shows view result) (hother : schema.name ≠ view)
    (active : Text) (rows : List Row) :
    Shows ⟨active, database.schemas.insert schema.name schema, database.rows.insert schema.name rows⟩
      view result := by
  refine ⟨?_, ?_, fun name found hfound => ?_⟩
  · rw [OrderedMap.get?_insert, if_neg hother.symm, h.schema]
  · rw [tableRows, OrderedMap.get?_insert, if_neg hother.symm]
    exact h.rows
  · rw [OrderedMap.get?_insert] at hfound
    split at hfound
    · next heq =>
      cases hfound
      exact heq.symm
    · exact h.named name found hfound

theorem Shows.create {after : Database} (h : database.Shows view result) (hcreation : Creation database after) :
    after.Shows view result := by
  obtain ⟨hdefinition, hnew, hschema, -⟩ := hcreation
  obtain ⟨hname, -, -⟩ := of_buildSchema hdefinition hschema
  refine h.enter (fun heq => ?_) _ []
  rw [← hname, heq, h.schema] at hnew
  cases hnew

theorem Shows.eraseTable (h : database.Shows view result) (hother : table ≠ view) :
    (database.eraseTable table).Shows view result := by
  refine ⟨?_, ?_, fun name schema hschema => ?_⟩
  · rw [Database.eraseTable, OrderedMap.get?_erase, if_neg hother.symm, h.schema]
  · rw [Database.eraseTable, tableRows, OrderedMap.get?_erase, if_neg hother.symm]
    exact h.rows
  · rw [Database.eraseTable, OrderedMap.get?_erase] at hschema
    split at hschema
    · cases hschema
    · exact h.named name schema hschema

theorem Shows.createTables {definitions : List CreateTable} (h : database.Shows view result)
    (hdefinitions : ∀ definition ∈ definitions, (Statement.createTable definition).WellRead)
    (hcreated : database.createTables definitions = .ok outcome) :
    (outcome.snapshot database).Shows view result := by
  have hcreations := creations_of_createTables hdefinitions hcreated
  generalize outcome.snapshot database = after at hcreations
  induction hcreations with
  | refl => exact h
  | tail _ hlast ih => exact ih.create hlast

theorem Shows.write (h : database.Shows view result) (hwritten : statement.written? = some table)
    (hother : table ≠ view) (hrun : database.run limit statement = .ok outcome) :
    (outcome.snapshot database).Shows view result := by
  obtain ⟨scratch, hscratch, hnext⟩ :=
    exists_commit_of_written h.closedUnder h.named hwritten hother hrun
  rw [hnext]
  have hkept : AlikeOn (· = view) database (database.commit scratch) :=
    alikeOn_commit hscratch fun _ hview hne => hne hview
  exact ⟨h.schema, (hkept.rows view rfl).trans h.rows, h.named⟩

/-- A statement that does not change the view leaves it as it is. -/
theorem Shows.run (h : database.Shows view result) (hstatement : statement.WellRead)
    (hspared : statement.changed? ≠ some view) (hrun : database.run limit statement = .ok outcome) :
    (outcome.snapshot database).Shows view result := by
  cases statement with
  | createTable definition =>
    refine h.createTables (fun other hmem => ?_) (Check.orFail_eq_ok.mp hrun)
    rw [List.mem_singleton.mp hmem]
    exact hstatement
  | createView definition =>
    obtain ⟨-, shown, -, hnext⟩ := of_createView (Check.orFail_eq_ok.mp hrun)
    rw [hnext]
    have hother : (viewSchema definition.view shown).name ≠ view := fun heq => hspared (congrArg some heq)
    exact h.enter hother _ _
  | dropTable drop =>
    rcases of_dropTable (Check.orFail_eq_ok.mp hrun) with hsame | ⟨herased, -⟩
    · rw [hsame]
      exact h
    · rw [herased]
      exact h.eraseTable fun heq => hspared (congrArg some heq)
  | insert insertion => exact h.write rfl (fun heq => hspared (congrArg some heq)) hrun
  | update change => exact h.write rfl (fun heq => hspared (congrArg some heq)) hrun
  | delete deletion => exact h.write rfl (fun heq => hspared (congrArg some heq)) hrun
  | select query =>
    obtain ⟨other, -, heq⟩ := Check.map_eq_ok.mp (Check.orFail_eq_ok.mp hrun)
    cases heq
    exact h

/-! ## Texts -/

theorem Shows.after {sql : Text} (h : database.Shows view result) (hspared : Spares view sql) :
    (database.after limit sql).Shows view result := by
  unfold Database.after
  split
  · next outcome hexecute =>
    rcases of_execute hexecute with hsame | ⟨definitions, hdefinitions, hcreated⟩ | ⟨statement, hruns, hrun⟩
    · rw [hsame]
      exact h
    · exact h.createTables hdefinitions hcreated
    · exact h.run (wellRead_of_parse hruns.parsed) (hspared statement hruns) hrun
  · exact h

theorem Shows.afterAll {texts : List (Int × Text)} (h : database.Shows view result)
    (hspared : ∀ text ∈ texts, Spares view text.2) : (database.afterAll texts).Shows view result := by
  induction texts generalizing database with
  | nil => exact h
  | cons text texts ih =>
    obtain ⟨hfirst, hrest⟩ := List.forall_mem_cons.mp hspared
    exact ih (h.after hfirst) hrest

/-- A view can be created wherever no table is in its way, and then shows the result of its query. -/
theorem exists_createView (hnamed : ∀ name schema, database.schemas.get? name = some schema → schema.name = name)
    (hfree : ∀ schema, database.schemas.get? view = some schema → schema.isView = true)
    (hselect : database.select query = .ok result) :
    ∃ outcome, database.createView ⟨view, query⟩ = .ok outcome ∧
      (outcome.snapshot database).Shows view result := by
  have hnone : (database.schemas.get? view).any (!·.isView) = false := by
    cases hschema : database.schemas.get? view with
    | none => rfl
    | some schema => simp [hfree schema hschema]
  have hcreated : ∃ outcome, database.createView ⟨view, query⟩ = .ok outcome := by
    simp only [createView, hnone, Bool.false_eq_true, if_false]
    exact ⟨_, Check.bind_eq_ok.mpr ⟨result, hselect, rfl⟩⟩
  obtain ⟨outcome, hcreated⟩ := hcreated
  obtain ⟨-, stored, hstored, hnext⟩ := of_createView hcreated
  rw [show stored = result from Except.ok.inj (hstored.symm.trans hselect)] at hnext
  refine ⟨outcome, hcreated, hnext ▸ ⟨?_, ?_, fun name schema hschema => ?_⟩⟩
  · rw [OrderedMap.get?_insert, if_pos rfl]
  · rw [tableRows, OrderedMap.get?_insert, if_pos rfl]
    rfl
  · rw [OrderedMap.get?_insert] at hschema
    split at hschema
    · next heq =>
      cases hschema
      exact heq.symm
    · exact hnamed name schema hschema

/-- A SELECT that succeeds can be stored as a view under a name that is free or names a view. A star on the
view then gives the same columns and rows in the same order, right away and after any texts that do not
replace, drop or write the view. -/
theorem view_shows_result (h : database.Reachable) (hselect : database.select query = .ok result)
    (hfree : ∀ schema, database.schemas.get? view = some schema → schema.isView = true) (limit : Int) :
    ∃ outcome, database.run limit (.createView ⟨view, query⟩) = .ok outcome ∧
      ∀ texts : List (Int × Text), (∀ text ∈ texts, Spares view text.2) →
        ((outcome.snapshot database).afterAll texts).run limit (.select (.everything view)) =
          .ok (.unchanged result) := by
  obtain ⟨outcome, hcreated, hshows⟩ := exists_createView h.listed.named hfree hselect
  obtain ⟨hdistinct, hrows⟩ := names_of_select hselect
  refine ⟨outcome, Check.orFail_eq_ok.mpr hcreated, fun texts hspared => ?_⟩
  have hshown := (hshows.afterAll hspared).select hdistinct hrows
  rw [Database.run, hshown]
  rfl

/-- The players of each team, counted, under a label that is used twice. -/
def squads : Select :=
  ⟨[.column "team" "of", .star none, .aggregate .count "*" "players", .column "id" "of"], "player", none,
    false, none, ["team"], none, [⟨"players", true⟩], none, 0⟩

set_option maxRecDepth 20000 in
theorem view_shows_result_squads :
    ∃ result outcome, league.select squads = .ok result ∧
      league.run 64 (.createView ⟨"squads", squads⟩) = .ok outcome ∧
      ((outcome.snapshot league).afterAll [(64, "DELETE FROM team"), (64, "DROP TABLE note")]).run 64
        (.select (.everything "squads")) = .ok (.unchanged result) := by
  have hselect : (league.select squads).isOk = true := by decide +kernel
  obtain ⟨result, hresult⟩ := Check.exists_of_isOk hselect
  have hfree : ∀ schema, league.schemas.get? "squads" = some schema → schema.isView = true := by
    have hnone : league.schemas.get? "squads" = none := by decide
    rw [hnone]
    exact nofun
  have hdelete : Spares "squads" "DELETE FROM team" :=
    spares_of_parse (show _ = Except.ok (.delete ⟨"team", none⟩) by decide +kernel) (by decide)
  have hdrop : Spares "squads" "DROP TABLE note" :=
    spares_of_parse (show _ = Except.ok (.dropTable ⟨"note", false⟩) by decide +kernel) (by decide)
  have hspared : ∀ text ∈ [((64 : Int), ("DELETE FROM team" : Text)), (64, "DROP TABLE note")],
      Spares "squads" text.2 := by
    simp [hdelete, hdrop]
  obtain ⟨outcome, hcreated, hshown⟩ := view_shows_result league_reachable hresult hfree 64
  exact ⟨result, outcome, hresult, hcreated, hshown _ hspared⟩

end Database

end SnapshotSql
