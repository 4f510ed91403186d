import SnapshotSql.Proofs.ComponentWrites
import SnapshotSql.Proofs.DropOrder
import SnapshotSql.Proofs.ParallelRuns

/-! # Writes of tables that no references connect

An INSERT, UPDATE or DELETE regards the tables only that references connect with its own, in whatever
direction: it reads no rows of others and publishes none. So of two such statements whose tables are not
connected each answers the same, or fails alike, whether it runs before or after the other, and the two
lead to one snapshot in either order.
-/
namespace SnapshotSql

def Statement.written? : Statement → Option Text
  | .insert insertion => some insertion.table
  | .update change => some change.table
  | .delete deletion => some deletion.table
  | _ => none

namespace Database

variable {tables : Text → Prop} {database database' : Database} {table other : Text} {limit : Int}
  {statement first second : Statement}

/-! ## Connected tables -/

/-- A table declares a reference to another one, or to itself. -/
def RefersTo (database : Database) (table other : Text) : Prop :=
  ∃ foreignKey ∈ database.foreignKeys table, foreignKey.refTable = other

/-- References lead from one table to the other, each followed in either direction. -/
def Connected (database : Database) : Text → Text → Prop :=
  Relation.EqvGen database.RefersTo

/-- A collection that no reference crosses has all connected tables or none. -/
theorem Uncrossed.iff_of_connected (h : database.Uncrossed tables) (hconnected : database.Connected table other) :
    tables table ↔ tables other := by
  induction hconnected with
  | rel _ _ hrefers =>
    obtain ⟨foreignKey, hforeign, rfl⟩ := hrefers
    exact h _ foreignKey hforeign
  | refl => rfl
  | symm _ _ _ ih => exact ih.symm
  | trans _ _ _ _ _ ih ih' => exact ih.trans ih'

def Component (database : Database) (root table : Text) : Prop :=
  database.Connected root table ∧ table ∈ database.tableNames

theorem WellBuilt.uncrossed_component (h : database.WellBuilt) (root : Text) :
    database.Uncrossed (database.Component root) := by
  intro table foreignKey hforeign
  have hrefers : database.Connected table foreignKey.refTable :=
    Relation.EqvGen.rel _ _ ⟨foreignKey, hforeign, rfl⟩
  have htable : table ∈ database.tableNames := by
    obtain ⟨schema, hschema, -⟩ := (mem_foreignKeys ..).mp hforeign
    exact mem_tableNames.mpr ⟨schema, hschema⟩
  have htarget : foreignKey.refTable ∈ database.tableNames :=
    mem_tableNames.mpr (h.target table foreignKey hforeign)
  constructor
  · rintro ⟨hroot, -⟩
    exact ⟨hroot.trans _ _ _ hrefers, htarget⟩
  · rintro ⟨hroot, -⟩
    exact ⟨hroot.trans _ _ _ (hrefers.symm _ _), htable⟩

/-! ## What a statement changes -/

/-- Two outcomes give one result and publish one change, of tables in a collection, to two snapshots. -/
inductive SameChange (tables : Text → Prop) (database database' : Database) : Outcome → Outcome → Prop
  | published {scratch : Scratch} {result : QueryResult} (hscratch : ∀ table ∈ scratch.names, tables table) :
      SameChange tables database database' (.published (database.commit scratch) result)
        (.published (database'.commit scratch) result)

/-- Whatever a write has answered, the outcome publishes the snapshot that the write has led to. -/
def PublishesNext {α : Type} (respond : α × Database → Except Failure Outcome) : Prop :=
  ∀ answer, ∃ result, ∀ next, respond (answer, next) = .ok (.published next result)

/-- A write that is the same computation on two snapshots publishes the same change to them, or fails on
both. -/
theorem agree_publish {α : Type} {write write' : Staging α} {respond : α × Database → Except Failure Outcome}
    (heq : write' = write) (hstages : Staging.Stages tables write fun _ => True)
    (hrespond : PublishesNext respond) :
    Check.Agree (SameChange tables database database') (database.publish write >>= respond)
      (database'.publish write' >>= respond) := by
  subst heq
  unfold publish
  rcases hrun : write'.run .empty with ⟨error | answer, scratch⟩
  · exact .error _
  · obtain ⟨result, hresult⟩ := hrespond answer
    change Check.Agree _ (respond (answer, database.commit scratch)) (respond (answer, database'.commit scratch))
    rw [hresult, hresult]
    exact .ok (.published fun table htable => hstages.names hrun htable)

namespace AlikeOn

variable (halike : AlikeOn tables database database')

include halike

theorem agree_requireTable (table : Text) :
    Check.Agree (fun schema schema' => schema = schema' ∧ database.schemas.get? table = some schema)
      (orFail (database.requireTable table)) (orFail (database'.requireTable table)) := by
  rw [halike.requireTable]
  apply Check.Agree.orFail
  cases hschema : database.requireTable table with
  | error error => exact .error error
  | ok schema => exact .ok ⟨rfl, requireTable_eq_ok.mp hschema⟩

/-- A statement that writes a table of the collection makes the same change to both snapshots, or fails on
both for the same reason. -/
theorem agree_run (hcrossed : database.Uncrossed tables) (hlisted : database.Listed)
    (hwritten : statement.written? = some table) (htable : table ∈ database.tableNames → tables table) :
    Check.Agree (SameChange tables database database') (database.run limit statement)
      (database'.run limit statement) := by
  have hclosed := hcrossed.closedUnder
  have hnamed : ∀ {schema}, database.schemas.get? table = some schema → tables schema.name := by
    intro schema hschema
    rw [hlisted.named table schema hschema]
    exact htable (mem_tableNames.mpr ⟨schema, hschema⟩)
  cases statement with
  | insert insertion =>
    cases hwritten
    refine (halike.agree_requireTable insertion.table).bind fun schema _ ⟨heq, hschema⟩ => ?_
    subst heq
    have htables := hnamed hschema
    refine (Check.agree_of_eq rfl).bind fun _ _ _ => (Check.agree_of_eq rfl).bind fun rows _ heq => ?_
    subst heq
    refine agree_publish (halike.insert hcrossed htables rows) (Integrity.stages_insert htables rows)
      fun inserted => ?_
    rcases inserted with _ | ⟨row, _ | ⟨_, _⟩⟩ <;> exact ⟨_, fun _ => rfl⟩
  | update change =>
    cases hwritten
    refine (halike.agree_requireTable change.table).bind fun schema _ ⟨heq, hschema⟩ => ?_
    subst heq
    have htables := hnamed hschema
    rw [halike.rows schema.name htables]
    refine (Check.agree_of_eq rfl).bind fun _ _ _ => (Check.agree_of_eq rfl).bind fun changes _ heq => ?_
    subst heq
    exact agree_publish (halike.update hcrossed htables changes)
      (Integrity.stages_update hclosed htables changes) fun _ => ⟨_, fun _ => rfl⟩
  | delete deletion =>
    cases hwritten
    refine (halike.agree_requireTable deletion.table).bind fun schema _ ⟨heq, hschema⟩ => ?_
    subst heq
    have htables := hnamed hschema
    rw [halike.rows schema.name htables]
    exact agree_publish (halike.delete hclosed htables _) (Integrity.stages_delete hclosed htables _)
      fun _ => ⟨_, fun _ => rfl⟩
  | _ => cases hwritten

end AlikeOn

/-! ## One statement after another -/

def answer (database : Database) (limit : Int) (statement : Statement) : Except Failure QueryResult :=
  (·.result) <$> database.run limit statement

/-- The snapshot after a statement. One that fails leaves the snapshot as it was. -/
def afterRun (database : Database) (limit : Int) (statement : Statement) : Database :=
  match database.run limit statement with
  | .ok outcome => outcome.snapshot database
  | .error _ => database

/-- A statement commits the same rows to both snapshots and answers the same. -/
theorem AlikeOn.exists_commit (halike : AlikeOn tables database database')
    (hcrossed : database.Uncrossed tables) (hlisted : database.Listed)
    (hwritten : statement.written? = some table) (htable : table ∈ database.tableNames → tables table) :
    database'.answer limit statement = database.answer limit statement ∧
      ∃ scratch : Scratch, (∀ table ∈ scratch.names, tables table) ∧
        database.afterRun limit statement = database.commit scratch ∧
        database'.afterRun limit statement = database'.commit scratch := by
  have hagree : Check.Agree (SameChange tables database database') (database.run limit statement)
      (database'.run limit statement) := halike.agree_run hcrossed hlisted hwritten htable
  unfold answer afterRun
  generalize database.run limit statement = run at hagree
  generalize database'.run limit statement = run' at hagree
  cases hagree with
  | error error => exact ⟨rfl, .empty, nofun, rfl, rfl⟩
  | ok hsame =>
    cases hsame with
    | published hscratch => exact ⟨rfl, _, hscratch, rfl, rfl⟩

/-- Tables outside the collection keep their rows when tables of the collection are published. -/
theorem alikeOn_commit {apart : Text → Prop} {scratch : Scratch} (hscratch : ∀ table ∈ scratch.names, tables table)
    (hapart : ∀ table, apart table → ¬ tables table) : AlikeOn apart database (database.commit scratch) := by
  refine ⟨rfl, fun table htable => ?_⟩
  have hnone : scratch.get? table = none := by
    rw [Option.eq_none_iff_forall_ne_some]
    intro rows hrows
    exact hapart table htable (hscratch table ((OrderedMap.mem_names_iff ..).mpr ⟨rows, hrows⟩))
  rw [tableRows_commit, Staging.rowsIn, hnone]
  rfl

/-- A statement commits the same rows of its component, and answers the same, on every snapshot that is
like this one there. -/
theorem Ordered.exists_commit (h : database.Ordered) (hwritten : statement.written? = some table)
    (halike : AlikeOn (database.Component table) database database') (limit : Int) :
    database'.answer limit statement = database.answer limit statement ∧
      ∃ scratch : Scratch, (∀ other ∈ scratch.names, database.Component table other) ∧
        database.afterRun limit statement = database.commit scratch ∧
        database'.afterRun limit statement = database'.commit scratch :=
  halike.exists_commit (h.built.uncrossed_component table) h.listed hwritten
    fun hthere => ⟨Relation.EqvGen.refl table, hthere⟩

/-- A statement changes nothing in a component other than its own. -/
theorem Ordered.alikeOn_afterRun (h : database.Ordered) (hwritten : statement.written? = some table)
    (hapart : ¬ database.Connected other table) (limit : Int) :
    AlikeOn (database.Component other) database (database.afterRun limit statement) := by
  have hself : AlikeOn (database.Component table) database database := ⟨rfl, fun _ _ => rfl⟩
  obtain ⟨-, scratch, hscratch, hnext, -⟩ := h.exists_commit hwritten hself limit
  rw [hnext]
  refine alikeOn_commit hscratch fun name hother htable => hapart ?_
  exact hother.1.trans _ _ _ (htable.1.symm _ _)

/-- Two statements that write tables which references do not connect commute: each answers the same, or
fails alike, before and after the other, and both orders end in one snapshot. -/
theorem writes_commute (h : database.Reachable) (hfirst : first.written? = some table)
    (hsecond : second.written? = some other) (hapart : ¬ database.Connected table other) (limit : Int) :
    (database.afterRun limit second).answer limit first = database.answer limit first ∧
      (database.afterRun limit first).answer limit second = database.answer limit second ∧
      (database.afterRun limit first).afterRun limit second =
        (database.afterRun limit second).afterRun limit first := by
  have hordered := h.ordered
  have hapart' : ¬ database.Connected other table := fun hconnected => hapart (hconnected.symm _ _)
  obtain ⟨hanswer, scratch, hscratch, hnext, hlater⟩ :=
    hordered.exists_commit hfirst (hordered.alikeOn_afterRun hsecond hapart limit) limit
  obtain ⟨hanswer', scratch', hscratch', hnext', hlater'⟩ :=
    hordered.exists_commit hsecond (hordered.alikeOn_afterRun hfirst hapart' limit) limit
  refine ⟨hanswer, hanswer', ?_⟩
  -- The changes are of different tables, and all of these have rows already.
  have hthere : ∀ {root name}, database.Component root name → name ∈ database.rows.names :=
    fun hcomponent => hordered.paired.names ▸ hcomponent.2
  have hrows : (database.rows.insertAll scratch).insertAll scratch' =
      (database.rows.insertAll scratch').insertAll scratch :=
    OrderedMap.insertAll_comm database.rows (fun name hname => hthere (hscratch name hname))
      (fun name hname => hthere (hscratch' name hname)) fun name hname hname' =>
        hapart ((hscratch name hname).1.trans _ _ _ ((hscratch' name hname').1.symm _ _))
  rw [hlater, hlater', hnext, hnext']
  simp only [commit, hrows]

def umpiredLeague : Database :=
  league.afterAll [(64, "CREATE TABLE umpire(id INT PRIMARY KEY)")]

set_option maxRecDepth 20000 in
theorem umpiredLeague_uncrossed : umpiredLeague.Uncrossed (· = ("umpire" : Text)) :=
  forall_foreignKeys_iff.mpr (by decide +kernel)

theorem writes_commute_umpiredLeague :
    let first : Statement := .delete ⟨"team", none⟩
    let second : Statement := .insert ⟨"umpire", none, [[.int 1]]⟩
    umpiredLeague.Reachable ∧ ¬ umpiredLeague.Connected "team" "umpire" ∧
      (umpiredLeague.afterRun 64 first).afterRun 64 second =
        (umpiredLeague.afterRun 64 second).afterRun 64 first := by
  intro first second
  have hreachable : umpiredLeague.Reachable := league_reachable.afterAll _
  have hapart : ¬ umpiredLeague.Connected "team" "umpire" := by
    intro hconnected
    have hsame := (umpiredLeague_uncrossed.iff_of_connected hconnected).mpr rfl
    exact absurd hsame (by decide)
  have hfirst : first.written? = some "team" := rfl
  have hsecond : second.written? = some "umpire" := rfl
  obtain ⟨-, -, hcommute⟩ := writes_commute hreachable hfirst hsecond hapart 64
  exact ⟨hreachable, hapart, hcommute⟩

end Database

end SnapshotSql
