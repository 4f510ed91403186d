import SnapshotSql.Proofs.Transitions

/-! # Many tables in one batch, or in one CREATE TABLE each

A batch checks each definition against the tables that are there and those it has created so far, and
enters its tables at the end. The same definitions run one at a time are checked against the snapshot
that the one before has left, which knows the same tables. The two differ in one place: a batch skips a
definition of a table that the database has had before, a later statement one that it finds there, be it
from an earlier statement or not. That cannot happen if no two definitions name the same table.
-/
namespace SnapshotSql

/-- A table is created under the name that its definition gives. -/
theorem name_of_buildSchema {known : OrderedMap TableSchema} {definition : CreateTable}
    {schema : TableSchema} (h : buildSchema known definition = .ok schema) :
    schema.name = definition.table :=
  (buildSchema_eq_ok.mp h).name

namespace Database

variable {database current next : Database} {known : OrderedMap TableSchema} {limit : Int}
  {definition : CreateTable} {definitions : List CreateTable} {created : List TableSchema}
  {outcome : Outcome}

/-- The snapshot after the definitions of a list, each run as a statement, if all of them succeed. -/
def createEach (limit : Int) : Database → List CreateTable → Except Failure Database
  | database, [] => .ok database
  | database, definition :: definitions => do
      let outcome ← database.run limit (.createTable definition)
      createEach limit (outcome.snapshot database) definitions

/-! ## A batch, and one definition -/

/-- In a batch, a definition of a known table is skipped if it may be and the database has had the table
before, and any other definition adds a schema. -/
theorem newSchemas_cons_eq_ok :
    database.newSchemas known (definition :: definitions) = .ok created ↔
      (known.contains definition.table = true ∧ definition.ifNotExists = true ∧
        database.schemas.contains definition.table = true ∧
          database.newSchemas known definitions = .ok created) ∨
      (known.contains definition.table = false ∧ ∃ schema rest, buildSchema known definition = .ok schema ∧
        database.newSchemas (known.insert schema.name schema) definitions = .ok rest ∧
          created = schema :: rest) := by
  rw [newSchemas]
  by_cases hknown : known.contains definition.table = true
  · by_cases hskip : definition.ifNotExists = true ∧ database.schemas.contains definition.table = true
    · simp [hknown, hskip.1, hskip.2]
    · have hrefused : (definition.ifNotExists && database.schemas.contains definition.table) = false := by
        simpa using hskip
      simp only [hknown, hrefused, if_true, Bool.false_eq_true, if_false, Check.invalid_ne_ok, false_iff]
      rintro (⟨-, hexists, hthere, -⟩ | ⟨hfalse, -⟩)
      · exact hskip ⟨hexists, hthere⟩
      · cases hfalse
  · have hnew : known.contains definition.table = false := by simpa using hknown
    simp only [hnew, Bool.false_eq_true, if_false, false_and, false_or, true_and, Check.bind_eq_ok,
      Check.pure_eq_ok, eq_comm (b := created), exists_and_left]

/-- A batch enters the tables that it has created, and publishes nothing if there are none. -/
theorem createTables_eq_ok :
    (∃ outcome, database.createTables definitions = .ok outcome ∧ outcome.snapshot database = next) ↔
      ∃ created, database.newSchemas database.schemas definitions = .ok created ∧
        next = created.foldl addTable database := by
  simp only [createTables, Check.bind_eq_ok]
  constructor
  · rintro ⟨outcome, ⟨created, hcreated, h⟩, rfl⟩
    refine ⟨created, hcreated, ?_⟩
    split at h
    · next hnone =>
      cases h
      rw [List.isEmpty_iff.mp hnone]
      rfl
    · cases h
      rfl
  · rintro ⟨created, hcreated, rfl⟩
    cases created with
    | nil => exact ⟨_, ⟨[], hcreated, rfl⟩, rfl⟩
    | cons schema rest => exact ⟨_, ⟨schema :: rest, hcreated, rfl⟩, rfl⟩

/-- A definition that is run as a statement leaves the snapshot as it is if it may be skipped and the
table is there, and adds an empty table otherwise. -/
theorem run_createTable_eq_ok :
    (∃ outcome, current.run limit (.createTable definition) = .ok outcome ∧
        outcome.snapshot current = next) ↔
      (current.schemas.contains definition.table = true ∧ definition.ifNotExists = true ∧
        next = current) ∨
      (current.schemas.contains definition.table = false ∧
        ∃ schema, buildSchema current.schemas definition = .ok schema ∧ next = current.addTable schema) := by
  simp only [run, Check.orFail_eq_ok, createTables_eq_ok, newSchemas_cons_eq_ok]
  constructor
  · rintro ⟨created, ⟨hthere, hskip, -, hnone⟩ | ⟨hnew, schema, rest, hschema, hnone, rfl⟩, rfl⟩
    · cases hnone
      exact Or.inl ⟨hthere, hskip, rfl⟩
    · cases hnone
      exact Or.inr ⟨hnew, schema, hschema, rfl⟩
  · rintro (⟨hthere, hskip, rfl⟩ | ⟨hnew, schema, hschema, rfl⟩)
    · exact ⟨[], Or.inl ⟨hthere, hskip, hthere, rfl⟩, rfl⟩
    · exact ⟨[schema], Or.inr ⟨hnew, schema, [], hschema, rfl, rfl⟩, rfl⟩

theorem createEach_cons_eq_ok :
    createEach limit current (definition :: definitions) = .ok next ↔
      (current.schemas.contains definition.table = true ∧ definition.ifNotExists = true ∧
        createEach limit current definitions = .ok next) ∨
      (current.schemas.contains definition.table = false ∧
        ∃ schema, buildSchema current.schemas definition = .ok schema ∧
          createEach limit (current.addTable schema) definitions = .ok next) := by
  have hstep : createEach limit current (definition :: definitions) = .ok next ↔
      ∃ middle, (∃ outcome, current.run limit (.createTable definition) = .ok outcome ∧
        outcome.snapshot current = middle) ∧ createEach limit middle definitions = .ok next := by
    simp only [createEach, Check.bind_eq_ok]
    constructor
    · rintro ⟨outcome, hrun, hrest⟩
      exact ⟨_, ⟨outcome, hrun, rfl⟩, hrest⟩
    · rintro ⟨_, ⟨outcome, hrun, rfl⟩, hrest⟩
      exact ⟨outcome, hrun, hrest⟩
  simp only [hstep, run_createTable_eq_ok]
  constructor
  · rintro ⟨_, ⟨hthere, hskip, rfl⟩ | ⟨hnew, schema, hschema, rfl⟩, hrest⟩
    · exact Or.inl ⟨hthere, hskip, hrest⟩
    · exact Or.inr ⟨hnew, schema, hschema, hrest⟩
  · rintro (⟨hthere, hskip, hrest⟩ | ⟨hnew, schema, hschema, hrest⟩)
    · exact ⟨current, Or.inl ⟨hthere, hskip, rfl⟩, hrest⟩
    · exact ⟨_, Or.inr ⟨hnew, schema, hschema, rfl⟩, hrest⟩

/-! ## All definitions of a batch -/

/-- What a batch checks against the known tables, statements check against the snapshot that they have
led to so far. -/
theorem createEach_of_newSchemas (hknown : current.schemas = known)
    (h : database.newSchemas known definitions = .ok created) :
    createEach limit current definitions = .ok (created.foldl addTable current) := by
  induction definitions generalizing current known created with
  | nil =>
    cases h
    rfl
  | cons definition definitions ih =>
    subst hknown
    rw [createEach_cons_eq_ok]
    rcases newSchemas_cons_eq_ok.mp h with
      ⟨hthere, hskip, -, hrest⟩ | ⟨hnew, schema, rest, hschema, hrest, rfl⟩
    · exact Or.inl ⟨hthere, hskip, ih rfl hrest⟩
    · exact Or.inr ⟨hnew, schema, hschema, ih rfl hrest⟩

/-- A table that definitions still to come name is one that the database has had before the batch. -/
def HadBefore (database current : Database) (definitions : List CreateTable) : Prop :=
  ∀ definition ∈ definitions, current.schemas.contains definition.table = true →
    database.schemas.contains definition.table = true

theorem HadBefore.addTable {schema : TableSchema} (h : HadBefore database current (definition :: definitions))
    (hdistinct : definition.table ∉ definitions.map (·.table)) (hname : schema.name = definition.table) :
    HadBefore database (current.addTable schema) definitions := by
  intro other hother hthere
  have hne : other.table ≠ schema.name := by
    rintro heq
    exact hdistinct (hname ▸ heq ▸ List.mem_map_of_mem hother)
  refine h other (List.mem_cons_of_mem _ hother) ?_
  rw [OrderedMap.contains_iff] at hthere ⊢
  rwa [Database.addTable, OrderedMap.get?_insert, if_neg hne] at hthere

theorem exists_newSchemas_of_createEach (hdistinct : (definitions.map (·.table)).Nodup)
    (hold : HadBefore database current definitions)
    (h : createEach limit current definitions = .ok next) :
    ∃ created, database.newSchemas current.schemas definitions = .ok created ∧
      next = created.foldl addTable current := by
  induction definitions generalizing current with
  | nil =>
    cases h
    exact ⟨[], rfl, rfl⟩
  | cons definition definitions ih =>
    obtain ⟨hnotin, hdistinct⟩ := List.nodup_cons.mp hdistinct
    simp only [newSchemas_cons_eq_ok]
    rcases createEach_cons_eq_ok.mp h with ⟨hthere, hskip, hrest⟩ | ⟨hnew, schema, hschema, hrest⟩
    · have hlater : HadBefore database current definitions :=
        fun other hother => hold other (List.mem_cons_of_mem _ hother)
      obtain ⟨created, hcreated, rfl⟩ := ih hdistinct hlater hrest
      exact ⟨created, Or.inl ⟨hthere, hskip, hold definition List.mem_cons_self hthere, hcreated⟩, rfl⟩
    · have hlater := hold.addTable hnotin (name_of_buildSchema hschema)
      obtain ⟨created, hcreated, rfl⟩ := ih hdistinct hlater hrest
      exact ⟨schema :: created, Or.inr ⟨hnew, schema, created, hschema, hcreated, rfl⟩, rfl⟩

/-- A batch that succeeds leads to the snapshot that its definitions lead to one at a time, and if no two
of them name the same table, definitions that succeed one at a time do so as a batch. -/
theorem createTables_and_createEach (database : Database) (limit : Int)
    (definitions : List CreateTable) :
    (∀ outcome, database.createTables definitions = .ok outcome →
      createEach limit database definitions = .ok (outcome.snapshot database)) ∧
    ((definitions.map (·.table)).Nodup → ∀ next, createEach limit database definitions = .ok next →
      ∃ outcome, database.createTables definitions = .ok outcome ∧ outcome.snapshot database = next) := by
  refine ⟨fun outcome h => ?_, fun hdistinct next h => ?_⟩
  · obtain ⟨created, hcreated, hnext⟩ := createTables_eq_ok.mp ⟨outcome, h, rfl⟩
    rw [hnext]
    exact createEach_of_newSchemas rfl hcreated
  · have hold : HadBefore database database definitions := fun _ _ hthere => hthere
    exact createTables_eq_ok.mpr (exists_newSchemas_of_createEach hdistinct hold h)

/-- Cities with streets that refer to them, and teams, which the league has already. -/
def town : List CreateTable :=
  let key : ColumnSpec := ⟨"id", "INT", [], true, false, false, false⟩
  [⟨"team", [key], none, [], [], true⟩, ⟨"city", [key], none, [], [], false⟩,
    ⟨"street", [key, ⟨"city", "INT", [], false, false, false, false⟩], none, [],
      [⟨["city"], "city", ["id"], .cascade, .restrict, none⟩], true⟩]

theorem createTables_and_createEach_town :
    (town.map (·.table)).Nodup ∧ ∃ next outcome, createEach 64 league town = .ok next ∧
      league.createTables town = .ok outcome ∧ outcome.snapshot league = next := by
  obtain ⟨hbatch, heach⟩ := createTables_and_createEach league 64 town
  have hdistinct : (town.map (·.table)).Nodup := by decide
  have hok : (league.createTables town).isOk = true := by decide +kernel
  obtain ⟨outcome, houtcome⟩ := Check.exists_of_isOk hok
  have hnext := hbatch outcome houtcome
  obtain ⟨same, hsame, heq⟩ := heach hdistinct _ hnext
  exact ⟨hdistinct, _, same, hnext, hsame, heq⟩

-- A table may be named twice one at a time, but not in a batch.
example : (createEach 64 league (town ++ town.drop 2)).isOk = true ∧
    (league.createTables (town ++ town.drop 2)).isOk = false := by
  decide +kernel

end Database

end SnapshotSql
