import SnapshotSql.Proofs.StagedChecks

/-! # Many rows in one INSERT, or in one INSERT each

An INSERT stages its rows one by one, each checked against those before it, and publishes its table
once. The same rows inserted by an INSERT each see what is staged there as the snapshot that the one
before has left: the keys seen so far are those of its rows, the next counter is found among them, and
parents are looked up in the same rows. So the two succeed on the same rows and end in one snapshot.
-/
namespace SnapshotSql

namespace Staging

def only (table : Text) (rows : List Row) : Scratch :=
  OrderedMap.empty.insert table rows

variable {database : Database} {table : Text} {rows staged : List Row}

theorem only_insert : (only table rows).insert table staged = only table staged :=
  OrderedMap.insert_insert ..

theorem rowsIn_only (other : Text) :
    rowsIn database (only table rows) other = if other = table then rows else database.tableRows other := by
  rw [only, rowsIn_insert, rowsIn_empty]

@[simp] theorem rowsIn_only_self : rowsIn database (only table rows) table = rows := by
  rw [rowsIn_only, if_pos rfl]

theorem commit_only : database.commit (only table rows) =
    { database with rows := database.rows.insert table rows } := rfl

/-- A table that is published again has the rows published last. -/
theorem commit_only_only :
    (database.commit (only table rows)).commit (only table staged) = database.commit (only table staged) := by
  simp only [commit_only, OrderedMap.insert_insert]

/-- The staged rows of the table hide what the snapshot has in it. -/
theorem rowsIn_commit_only (other : Text) :
    rowsIn (database.commit (only table rows)) (only table staged) other =
      rowsIn database (only table staged) other := by
  rw [rowsIn_only, rowsIn_only, Database.tableRows_commit, rowsIn_only]
  split <;> rfl

end Staging

namespace Integrity

open Staging

variable {database : Database} {schema : TableSchema} {table : Text} {seen next : SeenKeys}
  {row stored : Row} {rows staged inserted : List Row} {after : Scratch}

/-! ## Rows one by one -/

/-- A row that may be appended to the staged ones: with its counters filled it passes the checks of
keys, which are then the next ones seen, and finds its parents, among which it may be itself. -/
structure Appends (database : Database) (schema : TableSchema) (table : Text) (staged : List Row)
    (seen : SeenKeys) (row : Row) (next : SeenKeys) : Prop where
  keys : seen.add schema (fillCounters schema staged row) = .ok next
  parents : ∃ found, database.schemas.get? table = some found ∧ ∀ foreignKey ∈ found.foreignKeys,
    Matched foreignKey
      (rowsIn database (only table (staged ++ [fillCounters schema staged row])) foreignKey.refTable)
      [fillCounters schema staged row]

theorem runs_insertRow_only :
    Runs (insertRow database schema table seen row) (only table staged) (next, stored) after ↔
      stored = fillCounters schema staged row ∧ Appends database schema table staged seen row next ∧
        after = only table (staged ++ [stored]) := by
  simp only [insertRow, runs_bind, runs_check, runs_rows, runs_setRows, runs_pure,
    runs_checkForeignKeys]
  constructor
  · rintro ⟨_, _, ⟨rfl, rfl⟩, _, _, ⟨hadd, rfl⟩, _, _, rfl, _, _, ⟨hparents, rfl⟩, heq, rfl⟩
    cases heq
    rw [rowsIn_only_self, only_insert] at *
    exact ⟨rfl, ⟨hadd, hparents⟩, rfl⟩
  · rintro ⟨rfl, ⟨hadd, hparents⟩, rfl⟩
    refine ⟨staged, _, ⟨rowsIn_only_self.symm, rfl⟩, next, _, ⟨hadd, rfl⟩, (), _, rfl, (), _,
      ⟨?_, rfl⟩, rfl, only_insert.symm⟩
    rw [only_insert]
    exact hparents

theorem runs_insertRows_cons :
    Runs (insertRows database schema table seen (row :: rows)) (only table staged) inserted after ↔
      ∃ next rest, Appends database schema table staged seen row next ∧
        Runs (insertRows database schema table next rows)
          (only table (staged ++ [fillCounters schema staged row])) rest after ∧
        inserted = fillCounters schema staged row :: rest := by
  simp only [insertRows, runs_bind, runs_pure, Prod.exists, runs_insertRow_only]
  constructor
  · rintro ⟨next, _, _, ⟨rfl, hrow, rfl⟩, rest, _, hrest, rfl, rfl⟩
    exact ⟨next, rest, hrow, hrest, rfl⟩
  · rintro ⟨next, rest, hrow, hrest, rfl⟩
    exact ⟨next, _, _, ⟨rfl, hrow, rfl⟩, rest, after, hrest, rfl, rfl⟩

/-- The rows are staged behind those that are there. -/
theorem only_of_insertRows
    (h : Runs (insertRows database schema table seen rows) (only table staged) inserted after) :
    after = only table (staged ++ inserted) := by
  induction rows generalizing seen staged inserted with
  | nil =>
    obtain ⟨rfl, rfl⟩ := runs_pure.mp h
    rw [List.append_nil]
  | cons row rows ih =>
    obtain ⟨next, rest, -, hrest, rfl⟩ := runs_insertRows_cons.mp h
    rw [ih hrest, List.append_assoc, List.singleton_append]

theorem appends_commit_iff {published : List Row} :
    Appends (database.commit (only table published)) schema table staged seen row next ↔
      Appends database schema table staged seen row next := by
  constructor
  · rintro ⟨hkeys, hparents⟩
    simp only [rowsIn_commit_only] at hparents
    exact ⟨hkeys, hparents⟩
  · rintro ⟨hkeys, hparents⟩
    refine ⟨hkeys, ?_⟩
    simp only [rowsIn_commit_only]
    exact hparents

/-- Rows are appended to the staged ones alike, whatever rows of the table have been published. -/
theorem runs_insertRows_commit_iff {published : List Row} :
    Runs (insertRows (database.commit (only table published)) schema table seen rows)
        (only table staged) inserted after ↔
      Runs (insertRows database schema table seen rows) (only table staged) inserted after := by
  induction rows generalizing seen staged inserted with
  | nil => exact Iff.rfl
  | cons row rows ih => simp only [runs_insertRows_cons, appends_commit_iff, ih]

theorem ofRows_append (schema : TableSchema) (staged : List Row) (row : Row) :
    SeenKeys.ofRows schema (staged ++ [row]) =
      SeenKeys.ofRows schema staged >>= fun seen => seen.add schema row := by
  simp [SeenKeys.ofRows, List.foldlM_append]

end Integrity

namespace Database

open Staging Integrity

variable {database middle next : Database} {table : Text} {schema : TableSchema} {row : Row}
  {rows inserted : List Row}

theorem publish_insert_eq_ok :
    database.publish (Integrity.insert database table rows) = .ok (inserted, next) ↔
      ∃ schema seen, database.schemas.get? table = some schema ∧
        SeenKeys.ofRows schema (database.tableRows table) = .ok seen ∧
        Runs (insertRows database schema table seen rows) (only table (database.tableRows table)) inserted
          (only table (database.tableRows table ++ inserted)) ∧
        next = database.commit (only table (database.tableRows table ++ inserted)) := by
  simp only [publish_eq_ok, Integrity.insert, runs_bind, runs_check, runs_rows, runs_setRows,
    requireTable_eq_ok]
  constructor
  · rintro ⟨scratch, ⟨schema, _, ⟨hschema, rfl⟩, _, _, ⟨rfl, rfl⟩, _, _, rfl, seen, _, ⟨hseen, rfl⟩, h⟩, rfl⟩
    have hafter := only_of_insertRows h
    exact ⟨schema, seen, hschema, hseen, hafter ▸ h, hafter ▸ rfl⟩
  · rintro ⟨schema, seen, hschema, hseen, h, rfl⟩
    exact ⟨_, ⟨schema, _, ⟨hschema, rfl⟩, _, _, ⟨rfl, rfl⟩, (), _, rfl, seen, _, ⟨hseen, rfl⟩, h⟩, rfl⟩

/-- The first row may be published before the others are inserted. -/
theorem publish_insert_cons :
    (∃ inserted, database.publish (Integrity.insert database table (row :: rows)) = .ok (inserted, next)) ↔
      ∃ middle, (∃ inserted, database.publish (Integrity.insert database table [row]) = .ok (inserted, middle)) ∧
        ∃ inserted, middle.publish (Integrity.insert middle table rows) = .ok (inserted, next) := by
  simp only [publish_insert_eq_ok, runs_insertRows_cons]
  constructor
  · rintro ⟨_, schema, seen, hschema, hseen, ⟨added, rest, hrow, hrest, rfl⟩, rfl⟩
    have hfirst : Runs (insertRows database schema table added []) (only table
        (database.tableRows table ++ [fillCounters schema (database.tableRows table) row])) [] _ :=
      runs_pure.mpr ⟨rfl, rfl⟩
    refine ⟨_, ⟨_, schema, seen, hschema, hseen, ⟨added, [], hrow, hfirst, rfl⟩, rfl⟩,
      rest, schema, added, hschema, ?_⟩
    rw [tableRows_commit, rowsIn_only_self, ofRows_append, hseen, commit_only_only,
      runs_insertRows_commit_iff, List.append_assoc, List.singleton_append]
    exact ⟨hrow.keys, hrest, rfl⟩
  · rintro ⟨_, ⟨_, schema, seen, hschema, hseen, ⟨added, none, hrow, hnone, rfl⟩, rfl⟩, rest, found, later,
      hfound, hlater, hrest, rfl⟩
    obtain ⟨rfl, -⟩ := runs_pure.mp hnone
    cases hschema.symm.trans hfound
    rw [tableRows_commit, rowsIn_only_self, ofRows_append, hseen] at hlater
    cases hrow.keys.symm.trans hlater
    rw [tableRows_commit, rowsIn_only_self, runs_insertRows_commit_iff, List.append_assoc,
      List.singleton_append] at hrest
    refine ⟨_, schema, seen, hschema, hseen, ⟨added, rest, hrow, hrest, rfl⟩, ?_⟩
    rw [tableRows_commit, rowsIn_only_self, commit_only_only, List.append_assoc, List.singleton_append]

/-! ## Tuples one by one -/

variable {listed : Option (List Text)} {values : List Scalar} {tuples : List (List Scalar)} {limit : Int}

/-- Each tuple is typed by itself; its number is for messages only. -/
theorem typedRows_cons_eq_ok {number : Nat} :
    typedRows schema listed number (values :: tuples) = .ok rows ↔
      ∃ row rest, (insertColumns schema listed values.length).length = values.length ∧
        castRow schema.columns (.ofList ((insertColumns schema listed values.length).zip values)) = .ok row ∧
        typedRows schema listed (number + 1) tuples = .ok rest ∧ rows = row :: rest := by
  rw [typedRows]
  dsimp only
  split
  · next hcount => simp [hcount]
  · next hcount =>
    simp only [Check.bind_eq_ok, Check.pure_eq_ok, not_not.mp hcount, true_and]
    constructor
    · rintro ⟨row, hrow, rest, hrest, rfl⟩
      exact ⟨row, rest, hrow, hrest, rfl⟩
    · rintro ⟨row, rest, hrow, hrest, rfl⟩
      exact ⟨row, hrow, rest, hrest, rfl⟩

theorem typedRows_number (number other : Nat) :
    typedRows schema listed number tuples = .ok rows ↔ typedRows schema listed other tuples = .ok rows := by
  induction tuples generalizing number other rows with
  | nil => exact Iff.rfl
  | cons values tuples ih =>
    simp only [typedRows_cons_eq_ok]
    refine exists₂_congr fun row rest => and_congr_right fun _ => and_congr_right fun _ => ?_
    rw [ih (number + 1) (other + 1)]

def InsertsTo (database : Database) (insertion : Insert) (next : Database) : Prop :=
  ∃ outcome, database.insert insertion = .ok outcome ∧ outcome.snapshot database = next

theorem insertsTo_iff {insertion : Insert} : database.InsertsTo insertion next ↔
    ∃ schema rows, database.schemas.get? insertion.table = some schema ∧
      checkInsertColumns schema insertion.columns = .ok () ∧
      typedRows schema insertion.columns 1 insertion.rows = .ok rows ∧
      ∃ inserted, database.publish (Integrity.insert database schema.name rows) = .ok (inserted, next) := by
  simp only [InsertsTo, insert, Check.bind_eq_ok, Check.orFail_eq_ok, requireTable_eq_ok, Prod.exists]
  constructor
  · rintro ⟨outcome, ⟨schema, hschema, _, hcolumns, rows, hrows, inserted, published, hpublish, h⟩, rfl⟩
    refine ⟨schema, rows, hschema, hcolumns, hrows, inserted, ?_⟩
    rw [hpublish]
    split at h <;> cases h <;> rfl
  · rintro ⟨schema, rows, hschema, hcolumns, hrows, inserted, hpublish⟩
    -- Every shape of the list of inserted rows has its own answer.
    rcases inserted with _ | ⟨stored, _ | ⟨second, more⟩⟩ <;>
      exact ⟨_, ⟨schema, hschema, (), hcolumns, rows, hrows, _, next, hpublish, rfl⟩, rfl⟩

theorem insertsTo_cons : database.InsertsTo ⟨table, listed, values :: tuples⟩ next ↔
    ∃ middle, database.InsertsTo ⟨table, listed, [values]⟩ middle ∧
      middle.InsertsTo ⟨table, listed, tuples⟩ next := by
  simp only [insertsTo_iff, typedRows_cons_eq_ok]
  constructor
  · rintro ⟨schema, _, hschema, hcolumns, ⟨row, rest, hcount, hrow, hrest, rfl⟩, hpublish⟩
    obtain ⟨middle, ⟨stored, hfirst⟩, hlater⟩ := publish_insert_cons.mp hpublish
    refine ⟨middle, ⟨schema, [row], hschema, hcolumns, ⟨row, [], hcount, hrow, rfl, rfl⟩, stored, hfirst⟩,
      schema, rest, ?_, hcolumns, (typedRows_number 2 1).mp hrest, hlater⟩
    rw [schemas_of_publish hfirst]
    exact hschema
  · rintro ⟨middle, ⟨schema, _, hschema, hcolumns, ⟨row, _, hcount, hrow, hnone, rfl⟩, stored, hfirst⟩,
      found, rest, hfound, -, hrest, hlater⟩
    cases hnone
    rw [schemas_of_publish hfirst] at hfound
    cases hschema.symm.trans hfound
    exact ⟨schema, _, hschema, hcolumns,
      ⟨row, rest, hcount, hrow, (typedRows_number 1 2).mp hrest, rfl⟩,
      publish_insert_cons.mpr ⟨middle, ⟨stored, hfirst⟩, hlater⟩⟩

/-- The snapshot after the tuples of an INSERT have been inserted by an INSERT each, if all succeed. -/
def insertEach (limit : Int) (table : Text) (listed : Option (List Text)) :
    Database → List (List Scalar) → Except Failure Database
  | database, [] => .ok database
  | database, values :: tuples => do
      let outcome ← database.run limit (.insert ⟨table, listed, [values]⟩)
      insertEach limit table listed (outcome.snapshot database) tuples

theorem insertEach_cons_eq_ok :
    insertEach limit table listed database (values :: tuples) = .ok next ↔
      ∃ middle, database.InsertsTo ⟨table, listed, [values]⟩ middle ∧
        insertEach limit table listed middle tuples = .ok next := by
  simp only [insertEach, run, InsertsTo, Check.bind_eq_ok]
  constructor
  · rintro ⟨outcome, hfirst, hrest⟩
    exact ⟨_, ⟨outcome, hfirst, rfl⟩, hrest⟩
  · rintro ⟨_, ⟨outcome, hfirst, rfl⟩, hrest⟩
    exact ⟨outcome, hfirst, hrest⟩

/-- An INSERT of some tuples succeeds with a next snapshot exactly if the INSERTs of one tuple each, run
on one another's snapshots, all succeed and end in this one. -/
theorem insert_iff_insertEach (database : Database) (limit : Int) (table : Text)
    (listed : Option (List Text)) (values : List Scalar) (tuples : List (List Scalar)) (next : Database) :
    (∃ outcome, database.run limit (.insert ⟨table, listed, values :: tuples⟩) = .ok outcome ∧
        outcome.snapshot database = next) ↔
      insertEach limit table listed database (values :: tuples) = .ok next := by
  change database.InsertsTo ⟨table, listed, values :: tuples⟩ next ↔ _
  induction tuples generalizing database values with
  | nil =>
    rw [insertEach_cons_eq_ok]
    constructor
    · intro h
      exact ⟨next, h, rfl⟩
    · rintro ⟨middle, h, heq⟩
      cases heq
      exact h
  | cons second tuples ih =>
    rw [insertsTo_cons, insertEach_cons_eq_ok]
    exact exists_congr fun middle => and_congr_right fun _ => ih middle second

end Database

end SnapshotSql
