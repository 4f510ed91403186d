import SnapshotSql.Proofs.DeleteTraces
import SnapshotSql.Proofs.StagedChecks

/-! # An UPDATE as a trace of answers

An UPDATE asks every foreign key that points at the table of a revision about that revision. Each
answer is one step on the revisions and staged tables so far: nothing, or references that follow, which
are one more revision. The trace of an UPDATE asks exactly the questions of the revisions it ends with,
and then the tables of all revisions are checked as they are staged.
-/
namespace SnapshotSql.Integrity

/-! ## Steps of an UPDATE -/

/-- What an UPDATE has decided so far: the revisions, the oldest first, and the staged tables. -/
structure Revising where
  revisions : List Revision
  staged : Scratch

def Revision.questions (database : Database) (revision : Revision) : List (Question Revision) :=
  questionsAbout database revision.table revision

variable {database : Database}

def Revising.rows (database : Database) (revising : Revising) (table : Text) : List Row :=
  Staging.rowsIn database revising.staged table

def Question.keys (question : Question Revision) : List (Text × List Scalar) :=
  changedKeys question.foreignKey question.about.changes

def Question.following (database : Database) (question : Question Revision)
    (revising : Revising) : List Nat :=
  referringTo question.foreignKey (question.keys.map (·.1)) (revising.rows database question.child) []

/-- The revisions and staged tables after an answer. A reference that restricts has no row to follow. -/
inductive UpdateAnswer (database : Database) (before : Revising) (question : Question Revision) :
    Revising → Prop where
  | spare (hnone : question.following database before = []) : UpdateAnswer database before question before
  | follow (hsome : question.following database before ≠ [])
      (haction : question.foreignKey.onUpdate ≠ .restrict) :
      UpdateAnswer database before question
        ⟨before.revisions ++ [⟨question.child,
            (rowsAt (before.rows database question.child) (question.following database before)).map
              fun row => (row, followKey question.foreignKey question.keys row)⟩],
          before.staged.insert question.child
            (changeAt (before.rows database question.child) (question.following database before)
              (followKey question.foreignKey question.keys))⟩

structure UpdateStep (database : Database) (before : Revising) (question : Question Revision)
    (after : Revising) : Prop where
  revision_mem : question.about ∈ before.revisions
  foreignKey_mem : question.foreignKey ∈ database.foreignKeys question.child
  refTable_eq : question.foreignKey.refTable = question.about.table
  answer : UpdateAnswer database before question after

abbrev UpdateTrace (database : Database) : Revising → List (Question Revision) → Revising → Prop :=
  Trace (UpdateStep database)

theorem answer_of_answerUpdate {revision : Revision} {child : Text} {foreignKey : ForeignKey}
    {before after : Scratch} {next : Option Revision}
    (h : Staging.Runs (answerUpdate database revision child foreignKey) before next after)
    (revisions : List Revision) :
    UpdateAnswer database ⟨revisions, before⟩ ⟨revision, child, foreignKey⟩
      ⟨revisions ++ next.toList, after⟩ := by
  simp only [answerUpdate, Staging.runs_bind, Staging.runs_rows] at h
  obtain ⟨_, middle, ⟨rfl, rfl⟩, h⟩ := h
  split at h
  · next hnone =>
    obtain ⟨rfl, rfl⟩ := Staging.runs_pure.mp h
    rw [Option.toList_none, List.append_nil]
    exact UpdateAnswer.spare (List.isEmpty_iff.mp hnone)
  · next hsome =>
    split at h
    · exact absurd h Staging.runs_throw
    · next haction =>
      simp only [Staging.runs_bind, Staging.runs_setRows, Staging.runs_pure] at h
      obtain ⟨_, _, rfl, rfl, rfl⟩ := h
      exact UpdateAnswer.follow (fun hnone => hsome (List.isEmpty_iff.mpr hnone)) haction

theorem trace_of_spreadUpdate {revision : Revision} {references : List (Text × ForeignKey)}
    {revisions next : List Revision} {before after : Scratch} (hrevision : revision ∈ revisions)
    (hreferences : ∀ reference ∈ references, reference ∈ database.referencing revision.table)
    (h : Staging.Runs (spreadUpdate database revision references) before next after) :
    UpdateTrace database ⟨revisions, before⟩
      (references.map fun reference => ⟨revision, reference.1, reference.2⟩)
      ⟨revisions ++ next, after⟩ := by
  induction references generalizing revisions next before with
  | nil =>
    obtain ⟨rfl, rfl⟩ := Staging.runs_pure.mp h
    simpa using Trace.nil _
  | cons reference references ih =>
    obtain ⟨hfirst, hothers⟩ := List.forall_mem_cons.mp hreferences
    obtain ⟨hmem, htable⟩ := (Database.mem_referencing ..).mp hfirst
    simp only [spreadUpdate, Staging.runs_bind, Staging.runs_pure] at h
    obtain ⟨answer, middle, hanswer, rest, _, hrest, rfl, rfl⟩ := h
    have htail := ih (List.mem_append_left answer.toList hrevision) hothers hrest
    rw [List.append_assoc] at htail
    exact .cons ⟨hrevision, hmem, htable, answer_of_answerUpdate hanswer revisions⟩ htail

theorem trace_of_updateDepth {level revisions next : List Revision} {before after : Scratch}
    (hlevel : ∀ revision ∈ level, revision ∈ revisions)
    (h : Staging.Runs (updateDepth database level) before next after) :
    UpdateTrace database ⟨revisions, before⟩ (level.flatMap (Revision.questions database))
      ⟨revisions ++ next, after⟩ := by
  induction level generalizing revisions next before with
  | nil =>
    obtain ⟨rfl, rfl⟩ := Staging.runs_pure.mp h
    simpa using Trace.nil _
  | cons revision level ih =>
    simp only [updateDepth, Staging.runs_bind, Staging.runs_pure] at h
    obtain ⟨spread, middle, hspread, rest, _, hrest, rfl, rfl⟩ := h
    have hfirst := trace_of_spreadUpdate (hlevel revision List.mem_cons_self) (fun _ h => h) hspread
    have htail := ih (fun other hother =>
      List.mem_append_left spread (hlevel other (List.mem_cons_of_mem _ hother))) hrest
    rw [List.append_assoc] at htail
    exact hfirst.append htail

theorem trace_of_updateTables {limit : Int} {depths : Nat} {level revisions : List Revision}
    {tables : List Text} {before after : Scratch} (hlevel : ∀ revision ∈ level, revision ∈ revisions)
    (h : Staging.Runs (updateTables database limit depths level) before tables after) :
    ∃ later, tables = (level ++ later).map (·.table) ∧ UpdateTrace database ⟨revisions, before⟩
      ((level ++ later).flatMap (Revision.questions database)) ⟨revisions ++ later, after⟩ := by
  induction depths generalizing level revisions tables before with
  | zero =>
    cases level with
    | nil =>
      obtain ⟨rfl, rfl⟩ := Staging.runs_pure.mp h
      exact ⟨[], rfl, by simpa using Trace.nil _⟩
    | cons revision level => exact absurd h Staging.runs_throw
  | succ depths ih =>
    cases level with
    | nil =>
      obtain ⟨rfl, rfl⟩ := Staging.runs_pure.mp h
      exact ⟨[], rfl, by simpa using Trace.nil _⟩
    | cons revision level =>
      simp only [updateTables, Staging.runs_bind, Staging.runs_pure] at h
      obtain ⟨next, middle, hnext, rest, _, hrest, rfl, rfl⟩ := h
      have hnext' : ∀ revision ∈ next, revision ∈ revisions ++ next :=
        fun _ hmem => List.mem_append_right revisions hmem
      obtain ⟨later, rfl, htail⟩ := ih hnext' hrest
      refine ⟨next ++ later, by simp, ?_⟩
      rw [List.append_assoc] at htail
      rw [List.flatMap_append]
      exact (trace_of_updateDepth hlevel hnext).append htail

def Change.rows (change : Change) : Row × Row :=
  (change.before, change.after)

/-- An UPDATE that is not refused: its revisions, by a trace that answers every question of every
revision, and the checks that each table of a revision passes. -/
theorem trace_of_update {limit : Int} {table : Text} {changes : List Change} {count : Nat}
    {after : Scratch} (h : Staging.Runs (update database limit table changes) .empty count after) :
    count = changes.length ∧ ∃ revisions : List Revision,
      UpdateTrace database
        ⟨[⟨table, changes.map Change.rows⟩], OrderedMap.empty.insert table
          (replaceAt (database.tableRows table)
            (changes.map fun change => (change.position, change.after)))⟩
        (revisions.flatMap (Revision.questions database)) ⟨revisions, after⟩ ∧
      ∀ revision ∈ revisions, Valid database revision.table after := by
  simp only [update, Staging.runs_bind, Staging.runs_rows, Staging.runs_setRows, Staging.runs_pure] at h
  obtain ⟨_, _, ⟨rfl, rfl⟩, _, _, rfl, tables, staged, htables, _, _, hvalid, rfl, rfl⟩ := h
  obtain ⟨later, rfl, htrace⟩ := trace_of_updateTables (fun _ hmem => hmem) htables
  obtain ⟨hvalid, rfl⟩ := (Staging.runs_forM fun _ _ _ => runs_validate).mp hvalid
  refine ⟨rfl, _, htrace, fun revision hrevision => hvalid revision.table ?_⟩
  exact List.mem_eraseDups.mpr (List.mem_map_of_mem hrevision)

end SnapshotSql.Integrity
