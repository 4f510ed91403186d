import SnapshotSql.Proofs.CreateBatches
import SnapshotSql.Proofs.DropOrder

/-! # The check of a snapshot

Before a snapshot is published, it is checked that every table has rows and all rows belong to a table. A batch
leads from a snapshot that passes to one that passes, whatever else the snapshot has. On the way from the empty
snapshot no statement at all leads to one that does not pass, so the check never refuses anything there.
-/
namespace SnapshotSql

namespace Database

variable {database : Database} {limit : Int} {sql : Text} {definitions : List CreateTable}
  {created : List TableSchema} {outcome : Outcome}

theorem checkPaired_eq_ok :
    database.checkPaired = .ok () ↔ ∀ table, table ∈ database.schemas.names ↔ table ∈ database.rows.names := by
  have hcontains : ∀ {α : Type} (map : OrderedMap α) (name : Text),
      map.contains name = true ↔ name ∈ map.names := by
    intro α map name
    rw [OrderedMap.contains_iff, OrderedMap.mem_names_iff]
  have hnone : database.checkPaired = .ok () ↔
      database.schemas.names.filter (!database.rows.contains ·) = [] ∧
        database.rows.names.filter (!database.schemas.contains ·) = [] := by
    simp only [checkPaired, ← List.isEmpty_iff, ← Bool.and_eq_true]
    split <;> simp_all
  simp only [hnone, List.filter_eq_nil_iff, Bool.not_eq_true', Bool.not_eq_false, hcontains]
  exact ⟨fun h table => ⟨h.1 table, h.2 table⟩,
    fun h => ⟨fun table => (h table).mp, fun table => (h table).mpr⟩⟩

theorem checkPaired_foldl_addTable (h : database.checkPaired = .ok ()) :
    (created.foldl addTable database).checkPaired = .ok () := by
  induction created generalizing database with
  | nil => exact h
  | cons schema created ih =>
    apply ih
    rw [checkPaired_eq_ok] at h ⊢
    intro table
    simp only [addTable, OrderedMap.mem_names_iff, OrderedMap.get?_insert] at h ⊢
    split
    · simp
    · exact h table

theorem checked_eq_ok {answer : Outcome} : outcome.checked = .ok answer ↔
    outcome = answer ∧ ∀ next, outcome.next = some next → next.checkPaired = .ok () := by
  obtain ⟨_ | next, result⟩ := outcome
  · simp [Outcome.checked]
  · cases hcheck : next.checkPaired with
    | error error => simp [Outcome.checked, hcheck, orFail]
    | ok passed => simp [Outcome.checked, hcheck, orFail]

/-- A batch passes the check if the snapshot that it began with does. -/
theorem checked_of_createTables (hpaired : database.checkPaired = .ok ())
    (h : database.createTables definitions = .ok outcome) : outcome.checked = .ok outcome := by
  obtain ⟨created, -, hnext⟩ := createTables_eq_ok.mp ⟨outcome, h, rfl⟩
  refine checked_eq_ok.mpr ⟨rfl, fun next hsome => ?_⟩
  rw [Outcome.snapshot, hsome] at hnext
  cases hnext
  exact checkPaired_foldl_addTable hpaired

theorem Paired.checkPaired (h : database.Paired) : database.checkPaired = .ok () := by
  rw [checkPaired_eq_ok, h.names]
  exact fun _ => Iff.rfl

theorem checked_of_execute (hreachable : database.Reachable) (h : database.execute limit sql = .ok outcome) :
    outcome.checked = .ok outcome := by
  refine checked_eq_ok.mpr ⟨rfl, fun next hsome => ?_⟩
  have hafter : next.Reachable := by
    have hnext := hreachable.afterAll [(limit, sql)]
    simpa [afterAll, after, h, Outcome.snapshot, hsome] using hnext
  exact hafter.ordered.paired.checkPaired

/-- A snapshot that texts have led to never keeps the check from passing. -/
theorem executeChecked_of_reachable (hreachable : database.Reachable) :
    database.executeChecked limit sql = database.execute limit sql := by
  unfold executeChecked
  cases h : database.execute limit sql with
  | error failure => rfl
  | ok outcome => exact checked_of_execute hreachable h

end Database

end SnapshotSql
