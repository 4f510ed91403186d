import SnapshotSql.Proofs.DeleteTraces

/-! # The tables that a write stages

A write stages its own table and those that it reaches from there over references, from a table to the
ones that refer to it. So it stays inside any collection of tables that no reference leads into from
outside: all tables that are there, or those that references connect.
-/
namespace SnapshotSql

namespace Staging

variable {α β : Type} {tables : Text → Prop} {answers : α → Prop} {answers' : β → Prop}
  {write : Staging α} {next : α → Staging β}

/-- The write answers a value of a kind and stages, beside what is staged already, only the given tables. -/
def Stages (tables : Text → Prop) (write : Staging α) (answers : α → Prop) : Prop :=
  ∀ before answer after, Runs write before answer after →
    answers answer ∧ ∀ table ∈ after.names, table ∈ before.names ∨ tables table

theorem Stages.bind (h : Stages tables write answers)
    (hnext : ∀ value, answers value → Stages tables (next value) answers') :
    Stages tables (write >>= next) answers' := by
  intro before answer after hruns
  obtain ⟨value, middle, hfirst, hsecond⟩ := runs_bind.mp hruns
  obtain ⟨hvalue, hearlier⟩ := h before value middle hfirst
  obtain ⟨hanswer, hlater⟩ := hnext value hvalue middle answer after hsecond
  refine ⟨hanswer, fun table htable => ?_⟩
  rcases hlater table htable with hmiddle | hstaged
  · exact hearlier table hmiddle
  · exact Or.inr hstaged

/-- If nothing was staged before, the write leaves only the given tables staged. -/
theorem Stages.names (h : Stages tables write answers) {answer : α} {after : Scratch}
    (hruns : Runs write .empty answer after) {table : Text} (htable : table ∈ after.names) : tables table := by
  rcases (h .empty answer after hruns).2 table htable with hempty | hstaged
  · cases hempty
  · exact hstaged

/-- A step that leaves what is staged as it is. -/
theorem stages_of_eq (h : ∀ {before answer after}, Runs write before answer after →
    answers answer ∧ after = before) : Stages tables write answers := by
  intro before answer after hruns
  obtain ⟨hanswer, rfl⟩ := h hruns
  exact ⟨hanswer, fun _ htable => Or.inl htable⟩

theorem stages_pure {value : α} (h : answers value) : Stages tables (pure value) answers :=
  stages_of_eq fun hruns => by
    obtain ⟨rfl, hsame⟩ := runs_pure.mp hruns
    exact ⟨h, hsame⟩

theorem stages_check (result : Except SqlError α) : Stages tables (check result) fun _ => True :=
  stages_of_eq fun hruns => ⟨trivial, (runs_check.mp hruns).2⟩

theorem stages_throw (error : SqlError) : Stages tables (throw error : Staging α) answers :=
  stages_of_eq fun hruns => absurd hruns runs_throw

theorem stages_rows (database : Database) (table : Text) :
    Stages tables (rows database table) fun _ => True :=
  stages_of_eq fun hruns => ⟨trivial, (runs_rows.mp hruns).2⟩

theorem stages_get : Stages tables (get : Staging Scratch) fun _ => True :=
  stages_of_eq fun hruns => ⟨trivial, (runs_get.mp hruns).2⟩

theorem stages_setRows {table : Text} (htable : tables table) (rows : List Row) :
    Stages tables (setRows table rows) fun _ => True := by
  intro before answer after hruns
  refine ⟨trivial, fun other hother => ?_⟩
  rw [runs_setRows.mp hruns] at hother
  rcases OrderedMap.mem_map_put.mp hother with rfl | hbefore
  · exact Or.inr htable
  · exact Or.inl hbefore

theorem Stages.ite {condition : Prop} [Decidable condition] {other : Staging α}
    (h : Stages tables write answers) (h' : Stages tables other answers) :
    Stages tables (if condition then write else other) answers := by
  split
  · exact h
  · exact h'

theorem stages_forM {items : List α} {each : α → Staging Unit}
    (h : ∀ item ∈ items, Stages tables (each item) fun _ => True) :
    Stages tables (items.forM each) fun _ => True := by
  induction items with
  | nil => exact stages_pure trivial
  | cons item items ih =>
    obtain ⟨hitem, hitems⟩ := List.forall_mem_cons.mp h
    exact hitem.bind fun _ _ => ih hitems

end Staging

namespace Integrity

open Staging

variable {database : Database} {tables : Text → Prop} {table : Text} {limit : Int}

/-- With a table, the collection has the tables that refer to it. -/
def ClosedUnder (database : Database) (tables : Text → Prop) : Prop :=
  ∀ table, tables table → ∀ reference ∈ database.referencing table, tables reference.1

/-! ## INSERT -/

theorem stages_checkForeignKeys (rows : List Row) :
    Stages tables (checkForeignKeys database table rows) fun _ => True :=
  (stages_check _).bind fun _ _ => stages_forM fun _ _ =>
    (stages_rows _ _).bind fun _ _ => stages_check _

theorem stages_insertRows (htable : tables table) (schema : TableSchema) (seen : SeenKeys)
    (rows : List Row) : Stages tables (insertRows database schema table seen rows) fun _ => True := by
  induction rows generalizing seen with
  | nil => exact stages_pure trivial
  | cons row rows ih =>
    have hrow : Stages tables (insertRow database schema table seen row) fun _ => True :=
      (stages_rows _ _).bind fun _ _ => (stages_check _).bind fun _ _ =>
        (stages_setRows htable _).bind fun _ _ => (stages_checkForeignKeys _).bind fun _ _ =>
          stages_pure trivial
    exact hrow.bind fun _ _ => (ih _).bind fun _ _ => stages_pure trivial

theorem stages_insert (htable : tables table) (rows : List Row) :
    Stages tables (insert database table rows) fun _ => True :=
  (stages_check _).bind fun _ _ => (stages_rows _ _).bind fun _ _ =>
    (stages_setRows htable _).bind fun _ _ => (stages_check _).bind fun _ _ =>
      stages_insertRows htable _ _ _

/-! ## DELETE -/

theorem stages_answerDelete {child : Text} (hchild : tables child) (waves : List Wave) (wave : Wave)
    (parents : List Row) (foreignKey : ForeignKey) :
    Stages tables (answerDelete database waves wave parents child foreignKey)
      fun next => ∀ wave ∈ next, tables wave.table := by
  refine (stages_rows _ _).bind fun children _ => Stages.ite (stages_pure nofun) ?_
  split
  · exact stages_throw _
  · refine stages_pure fun wave hwave => ?_
    cases hwave
    exact hchild
  · exact (stages_setRows hchild _).bind fun _ _ => stages_pure nofun

theorem stages_spreadDelete (wave : Wave) (staged : Bool) {references : List (Text × ForeignKey)}
    (hreferences : ∀ reference ∈ references, tables reference.1) (waves : List Wave) :
    Stages tables (spreadDelete database wave staged references waves)
      fun next => ∀ wave ∈ next, tables wave.table := by
  induction references generalizing waves with
  | nil => exact stages_pure nofun
  | cons reference references ih =>
    obtain ⟨child, foreignKey⟩ := reference
    obtain ⟨hchild, hrest⟩ := List.forall_mem_cons.mp hreferences
    unfold spreadDelete
    extract_lets spread
    have hspread : ∀ parents, Stages tables (spread parents)
        fun next => ∀ wave ∈ next, tables wave.table := by
      intro parents
      refine (stages_answerDelete hchild waves wave parents foreignKey).bind fun next hnext => ?_
      split
      · exact ih hrest waves
      · next answered =>
        refine (ih hrest _).bind fun more hmore => stages_pure ?_
        exact List.forall_mem_cons.mpr ⟨hnext answered rfl, hmore⟩
    have hstored : Stages tables (pure (database.tableRows wave.table) : Staging (List Row)) fun _ => True :=
      stages_pure trivial
    exact Stages.ite ((stages_rows _ _).bind fun parents _ => hspread parents)
      (hstored.bind fun parents _ => hspread parents)

theorem stages_deleteDepth (hclosed : ClosedUnder database tables) {level : List Wave}
    (hlevel : ∀ wave ∈ level, tables wave.table) (waves : List Wave) :
    Stages tables (deleteDepth database level waves) fun next => ∀ wave ∈ next, tables wave.table := by
  induction level generalizing waves with
  | nil => exact stages_pure nofun
  | cons wave level ih =>
    obtain ⟨hwave, hrest⟩ := List.forall_mem_cons.mp hlevel
    refine stages_get.bind fun _ _ =>
      (stages_spreadDelete wave _ (hclosed wave.table hwave) waves).bind fun next hnext => ?_
    exact (ih hrest _).bind fun more hmore =>
      stages_pure (List.forall_mem_append.mpr ⟨hnext, hmore⟩)

theorem stages_deleteWaves (hclosed : ClosedUnder database tables) (depths : Nat) {level waves : List Wave}
    (hlevel : ∀ wave ∈ level, tables wave.table) (hwaves : ∀ wave ∈ waves, tables wave.table) :
    Stages tables (deleteWaves database limit depths level waves)
      fun all => ∀ wave ∈ all, tables wave.table := by
  induction depths generalizing level waves with
  | zero =>
    cases level with
    | nil => exact stages_pure hwaves
    | cons _ _ => exact stages_throw _
  | succ depths ih =>
    cases level with
    | nil => exact stages_pure hwaves
    | cons wave level =>
      exact (stages_deleteDepth hclosed hlevel waves).bind fun next hnext =>
        ih hnext (List.forall_mem_append.mpr ⟨hwaves, hnext⟩)

theorem stages_delete (hclosed : ClosedUnder database tables) (htable : tables table)
    (positions : List Nat) : Stages tables (delete database limit table positions) fun _ => True := by
  have hfirst : ∀ wave ∈ [Wave.mk table positions], tables wave.table :=
    List.forall_mem_singleton.mpr htable
  refine (stages_deleteWaves hclosed _ hfirst hfirst).bind fun waves hwaves => ?_
  refine (stages_forM fun other hother => ?_).bind fun _ _ => stages_pure trivial
  obtain ⟨wave, hwave, rfl⟩ := List.mem_map.mp (List.mem_eraseDups.mp hother)
  exact Stages.ite ((stages_rows _ _).bind fun _ _ => stages_setRows (hwaves wave hwave) _)
    (stages_pure trivial)

/-! ## UPDATE -/

theorem stages_answerUpdate {child : Text} (hchild : tables child) (revision : Revision)
    (foreignKey : ForeignKey) : Stages tables (answerUpdate database revision child foreignKey)
      fun next => ∀ revision ∈ next, tables revision.table := by
  refine (stages_rows _ _).bind fun children _ =>
    Stages.ite (stages_pure nofun) (Stages.ite (stages_throw _) ?_)
  refine (stages_setRows hchild _).bind fun _ _ => stages_pure fun revision hrevision => ?_
  cases hrevision
  exact hchild

theorem stages_spreadUpdate (revision : Revision) {references : List (Text × ForeignKey)}
    (hreferences : ∀ reference ∈ references, tables reference.1) :
    Stages tables (spreadUpdate database revision references)
      fun next => ∀ revision ∈ next, tables revision.table := by
  induction references with
  | nil => exact stages_pure nofun
  | cons reference references ih =>
    obtain ⟨hchild, hrest⟩ := List.forall_mem_cons.mp hreferences
    refine (stages_answerUpdate hchild revision reference.2).bind fun next hnext =>
      (ih hrest).bind fun more hmore => stages_pure ?_
    exact List.forall_mem_append.mpr
      ⟨fun answered hanswered => hnext answered (Option.mem_toList.mp hanswered), hmore⟩

theorem stages_updateDepth (hclosed : ClosedUnder database tables) {level : List Revision}
    (hlevel : ∀ revision ∈ level, tables revision.table) :
    Stages tables (updateDepth database level)
      fun next => ∀ revision ∈ next, tables revision.table := by
  induction level with
  | nil => exact stages_pure nofun
  | cons revision level ih =>
    obtain ⟨hrevision, hrest⟩ := List.forall_mem_cons.mp hlevel
    exact (stages_spreadUpdate revision (hclosed revision.table hrevision)).bind fun next hnext =>
      (ih hrest).bind fun more hmore => stages_pure (List.forall_mem_append.mpr ⟨hnext, hmore⟩)

theorem stages_updateTables (hclosed : ClosedUnder database tables) (depths : Nat)
    {level : List Revision} (hlevel : ∀ revision ∈ level, tables revision.table) :
    Stages tables (updateTables database limit depths level) fun touched => ∀ table ∈ touched, tables table := by
  induction depths generalizing level with
  | zero =>
    cases level with
    | nil => exact stages_pure nofun
    | cons _ _ => exact stages_throw _
  | succ depths ih =>
    cases level with
    | nil => exact stages_pure nofun
    | cons revision level =>
      refine (stages_updateDepth hclosed hlevel).bind fun next hnext =>
        (ih hnext).bind fun later hlater => stages_pure ?_
      exact List.forall_mem_append.mpr ⟨List.forall_mem_map.mpr hlevel, hlater⟩

theorem stages_update (hclosed : ClosedUnder database tables) (htable : tables table)
    (changes : List Change) : Stages tables (update database limit table changes) fun _ => True := by
  refine (stages_rows _ _).bind fun _ _ => (stages_setRows htable _).bind fun _ _ =>
    (stages_updateTables hclosed _ (List.forall_mem_singleton.mpr htable)).bind fun touched _ => ?_
  refine (stages_forM fun other _ => ?_).bind fun _ _ => stages_pure trivial
  have hkeys : Stages tables (validateKeys database other) fun _ => True :=
    (stages_check _).bind fun _ _ => (stages_rows _ _).bind fun _ _ =>
      (stages_check _).bind fun _ _ => stages_pure trivial
  exact hkeys.bind fun _ _ => (stages_rows _ _).bind fun _ _ => stages_checkForeignKeys _

end Integrity

namespace Database

variable {database next : Database} {tables : Text → Prop} {α : Type} {write : Staging α} {answer : α}

/-- A write that stages tables with rows only leaves the list of tables with rows as it is. -/
theorem names_of_publish (hstages : Staging.Stages tables write fun _ => True)
    (hknown : ∀ table, tables table → table ∈ database.rows.names)
    (h : database.publish write = .ok (answer, next)) : next.rows.names = database.rows.names := by
  obtain ⟨scratch, hruns, rfl⟩ := publish_eq_ok.mp h
  exact OrderedMap.names_insertAll _ fun table htable => hknown table (hstages.names hruns htable)

end Database

end SnapshotSql
