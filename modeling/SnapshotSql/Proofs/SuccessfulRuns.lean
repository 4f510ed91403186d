import SnapshotSql.Execution
import SnapshotSql.Proofs.MapLookup

/-! # What a successful run tells about its steps

A sequence of checks succeeds only if every check does, and a staged write succeeds only if each of its
steps does, one after the other. All steps of a write are taken apart by these rules, none by unfolding.
-/
namespace SnapshotSql

/-! ## Checks -/

namespace Check

variable {ε α β : Type}

@[simp] theorem bind_eq_ok {check : Except ε α} {next : α → Except ε β} {answer : β} :
    (check >>= next) = .ok answer ↔ ∃ value, check = .ok value ∧ next value = .ok answer := by
  cases check <;> simp [bind, Except.bind]

@[simp] theorem pure_eq_ok {value answer : α} :
    (pure value : Except ε α) = .ok answer ↔ value = answer := by
  simp [pure, Except.pure]

@[simp] theorem map_eq_ok {check : Except ε α} {f : α → β} {answer : β} :
    (f <$> check) = .ok answer ↔ ∃ value, check = .ok value ∧ f value = answer := by
  cases check <;> simp [Functor.map, Except.map]

@[simp] theorem orFail_eq_ok {check : Except SqlError α} {answer : α} :
    orFail check = .ok answer ↔ check = .ok answer := by
  cases check <;> simp [orFail]

theorem exists_of_isOk {check : Except ε α} (h : check.isOk = true) : ∃ answer, check = .ok answer := by
  cases check with
  | error _ => cases h
  | ok answer => exact ⟨answer, rfl⟩

@[simp] theorem invalid_ne_ok {error : SchemaError} {answer : α} :
    (invalid error : Except SqlError α) ≠ .ok answer := by
  simp [invalid]

/-- A check of all elements succeeds if it does for each of them. -/
theorem forM_eq_ok {check : α → Except ε Unit} {items : List α} :
    items.forM check = .ok () ↔ ∀ item ∈ items, check item = .ok () := by
  induction items with
  | nil => simp [List.forM]
  | cons item items ih =>
    change (check item >>= fun _ => items.forM check) = _ ↔ _
    simp only [bind_eq_ok, ih, List.mem_cons, forall_eq_or_imp]
    constructor
    · rintro ⟨_, hitem, hitems⟩
      exact ⟨hitem, hitems⟩
    · rintro ⟨hitem, hitems⟩
      exact ⟨(), hitem, hitems⟩

theorem exists_of_mem_mapM {f : α → Except ε β} {items : List α} {answers : List β}
    (h : items.mapM f = .ok answers) {answer : β} (hmem : answer ∈ answers) :
    ∃ item ∈ items, f item = .ok answer := by
  induction items generalizing answers with
  | nil =>
    cases h
    cases hmem
  | cons item items ih =>
    rw [List.mapM_cons] at h
    simp only [bind_eq_ok, pure_eq_ok] at h
    obtain ⟨first, hfirst, rest, hrest, rfl⟩ := h
    rcases List.mem_cons.mp hmem with rfl | hmem
    · exact ⟨item, List.mem_cons_self, hfirst⟩
    · obtain ⟨other, hother, heq⟩ := ih hrest hmem
      exact ⟨other, List.mem_cons_of_mem _ hother, heq⟩

end Check

/-! ## Staged writes -/

namespace Staging

variable {α β : Type} {before after : Scratch}

/-- A write that is not refused: it answers a value and leaves the staged tables changed. -/
def Runs (write : Staging α) (before : Scratch) (answer : α) (after : Scratch) : Prop :=
  write before = (.ok answer, after)

/-- A write whose result is known runs to that result only. -/
theorem runs_iff_of_eq {write : Staging α} {value answer : α} {staged : Scratch}
    (h : write before = (.ok value, staged)) :
    Runs write before answer after ↔ answer = value ∧ after = staged := by
  rw [Runs, h, Prod.mk.injEq, Except.ok.injEq, eq_comm, eq_comm (a := staged)]

@[simp] theorem runs_pure {value answer : α} :
    Runs (pure value) before answer after ↔ answer = value ∧ after = before :=
  runs_iff_of_eq rfl

@[simp] theorem runs_bind {write : Staging α} {next : α → Staging β} {answer : β} :
    Runs (write >>= next) before answer after ↔
      ∃ value middle, Runs write before value middle ∧ Runs (next value) middle answer after := by
  have hstep : (write >>= next) before =
      ExceptT.bindCont next (write before).1 (write before).2 := rfl
  simp only [Runs, hstep]
  rcases write before with ⟨error | value, middle⟩
  · constructor
    · intro h
      cases h
    · rintro ⟨value, middle', h, -⟩
      cases h
  · constructor
    · intro h
      exact ⟨value, middle, rfl, h⟩
    · rintro ⟨value', middle', h, hnext⟩
      cases h
      exact hnext

@[simp] theorem runs_check {result : Except SqlError α} {answer : α} :
    Runs (check result) before answer after ↔ result = .ok answer ∧ after = before := by
  constructor
  · intro h
    cases h
    exact ⟨rfl, rfl⟩
  · rintro ⟨rfl, rfl⟩
    rfl

@[simp] theorem runs_throw {error : SqlError} {answer : α} :
    ¬ Runs (throw error) before answer after := by
  intro h
  cases h

@[simp] theorem runs_rows {database : Database} {table : Text} {answer : List Row} :
    Runs (rows database table) before answer after ↔
      answer = rowsIn database before table ∧ after = before :=
  runs_iff_of_eq rfl

@[simp] theorem runs_setRows {table : Text} {staged : List Row} {answer : Unit} :
    Runs (setRows table staged) before answer after ↔ after = before.insert table staged := by
  have hresult : Runs (setRows table staged) before answer after ↔
      answer = () ∧ after = before.insert table staged := runs_iff_of_eq rfl
  rw [hresult]
  exact and_iff_right rfl

@[simp] theorem runs_get {answer : Scratch} :
    Runs (get : Staging Scratch) before answer after ↔ answer = before ∧ after = before :=
  runs_iff_of_eq rfl

/-- The rows of the tables as they stand: a table that is staged again has the rows staged last. -/
theorem rowsIn_insert (database : Database) (scratch : Scratch) (table other : Text)
    (staged : List Row) :
    rowsIn database (scratch.insert table staged) other =
      if other = table then staged else rowsIn database scratch other := by
  by_cases h : other = table <;> simp [rowsIn, h]

@[simp] theorem rowsIn_empty (database : Database) (table : Text) :
    rowsIn database .empty table = database.tableRows table := rfl

end Staging

theorem TableSchema.requireColumn_eq_ok {schema : TableSchema} {column : Text} :
    schema.requireColumn column = .ok () ↔ column ∈ schema.columnNames := by
  simp [requireColumn]

namespace Database

@[simp] theorem requireTable_eq_ok {database : Database} {table : Text} {schema : TableSchema} :
    database.requireTable table = .ok schema ↔ database.schemas.get? table = some schema := by
  unfold requireTable
  cases database.schemas.get? table <;> simp

theorem tableRows_commit (database : Database) (scratch : Scratch) (table : Text) :
    (database.commit scratch).tableRows table = Staging.rowsIn database scratch table := by
  simp only [tableRows, commit, OrderedMap.get?_insertAll, Staging.rowsIn]
  cases scratch.get? table <;> rfl

/-- A published write has run from the snapshot on, and the next snapshot holds what it staged. -/
theorem publish_eq_ok {α : Type} {database next : Database} {write : Staging α} {answer : α} :
    database.publish write = .ok (answer, next) ↔
      ∃ scratch, Staging.Runs write .empty answer scratch ∧ next = database.commit scratch := by
  simp only [publish, Staging.Runs, ExceptT.run]
  rcases write .empty with ⟨error | value, scratch⟩
  · constructor
    · intro h
      cases h
    · rintro ⟨scratch', h, -⟩
      cases h
  · constructor
    · intro h
      cases h
      exact ⟨scratch, rfl, rfl⟩
    · rintro ⟨scratch', h, rfl⟩
      cases h
      rfl

theorem schemas_of_publish {α : Type} {database next : Database} {write : Staging α} {answer : α}
    (h : database.publish write = .ok (answer, next)) : next.schemas = database.schemas := by
  obtain ⟨scratch, -, rfl⟩ := publish_eq_ok.mp h
  rfl

end Database

end SnapshotSql
