import SnapshotSql.Proofs.SuccessfulRuns
import Mathlib.Data.List.Forall2

/-! # Two runs side by side

Two checks agree if they fail with one error, or both succeed with answers that are related. Two staged
writes agree if, begun with related tables, they do so and leave related tables again. Runs that take
the same steps in the same order agree if their steps do: there is a rule for each kind of step.
-/
namespace SnapshotSql

/-! ## Checks -/

namespace Check

variable {ε α β α' β' : Type} {answers : α → α' → Prop} {answers' : β → β' → Prop}
  {check : Except ε α} {check' : Except ε α'}

inductive Agree (answers : α → α' → Prop) : Except ε α → Except ε α' → Prop
  | error (error : ε) : Agree answers (.error error) (.error error)
  | ok {answer : α} {answer' : α'} (h : answers answer answer') : Agree answers (.ok answer) (.ok answer')

theorem agree_of_eq {other : Except ε α} (h : check = other) : Agree Eq check other := by
  subst h
  cases check with
  | error error => exact .error error
  | ok answer => exact .ok rfl

theorem Agree.bind {next : α → Except ε β} {next' : α' → Except ε β'} (h : Agree answers check check')
    (hnext : ∀ answer answer', answers answer answer' → Agree answers' (next answer) (next' answer')) :
    Agree answers' (check >>= next) (check' >>= next') := by
  cases h with
  | error error => exact .error error
  | ok h => exact hnext _ _ h

theorem Agree.orFail {check : Except SqlError α} {check' : Except SqlError α'}
    (h : Agree answers check check') : Agree answers (orFail check) (orFail check') := by
  cases h with
  | error error => exact .error _
  | ok h => exact .ok h

/-- Two checks that agree fail with one error, or both succeed with related answers. -/
theorem Agree.cases (h : Agree answers check check') :
    (∃ error, check = .error error ∧ check' = .error error) ∨
      ∃ answer answer', check = .ok answer ∧ check' = .ok answer' ∧ answers answer answer' := by
  cases h with
  | error error => exact Or.inl ⟨error, rfl, rfl⟩
  | ok h => exact Or.inr ⟨_, _, rfl, rfl, h⟩

end Check

/-! ## Staged writes -/

namespace Staging

variable {α β α' β' : Type} {alike : Scratch → Scratch → Prop} {answers : α → α' → Prop}
  {answers' : β → β' → Prop} {write : Staging α} {write' : Staging α'}

/-- What a write answers and leaves staged, unless it is refused. -/
def outcome (write : Staging α) (before : Scratch) : Except SqlError (α × Scratch) :=
  match write before with
  | (.ok answer, after) => .ok (answer, after)
  | (.error error, _) => .error error

theorem outcome_bind (write : Staging α) (next : α → Staging β) (before : Scratch) :
    outcome (write >>= next) before = outcome write before >>= fun result => outcome (next result.1) result.2 := by
  have hstep : (write >>= next) before = ExceptT.bindCont next (write before).1 (write before).2 := rfl
  simp only [outcome, hstep]
  rcases write before with ⟨error | answer, after⟩ <;> rfl

/-- Begun with tables that are alike, the writes are refused with one error, or both succeed, with related
answers, and leave tables that are alike. -/
def Agree (alike : Scratch → Scratch → Prop) (answers : α → α' → Prop) (write : Staging α)
    (write' : Staging α') : Prop :=
  ∀ before before', alike before before' →
    Check.Agree (fun result result' => answers result.1 result'.1 ∧ alike result.2 result'.2)
      (outcome write before) (outcome write' before')

theorem Agree.bind {next : α → Staging β} {next' : α' → Staging β'} (h : Agree alike answers write write')
    (hnext : ∀ answer answer', answers answer answer' → Agree alike answers' (next answer) (next' answer')) :
    Agree alike answers' (write >>= next) (write' >>= next') := by
  intro before before' halike
  rw [outcome_bind, outcome_bind]
  exact (h before before' halike).bind fun _ _ hresult => hnext _ _ hresult.1 _ _ hresult.2

theorem agree_pure {answer : α} {answer' : α'} (h : answers answer answer') :
    Agree alike answers (pure answer) (pure answer') :=
  fun _ _ halike => .ok ⟨h, halike⟩

theorem agree_check {result result' : Except SqlError α} (h : result = result') :
    Agree alike Eq (check result) (check result') := by
  subst h
  intro before before' halike
  cases result with
  | error error => exact .error error
  | ok answer => exact .ok ⟨rfl, halike⟩

theorem agree_throw (error : SqlError) :
    Agree alike answers (throw error : Staging α) (throw error : Staging α') :=
  fun _ _ _ => .error error

theorem agree_rows {database database' : Database} {table : Text} {related : List Row → List Row → Prop}
    (h : ∀ before before', alike before before' →
      related (rowsIn database before table) (rowsIn database' before' table)) :
    Agree alike related (rows database table) (rows database' table) :=
  fun before before' halike => .ok ⟨h before before' halike, halike⟩

theorem agree_setRows {table : Text} {staged staged' : List Row}
    (h : ∀ before before', alike before before' →
      alike (before.insert table staged) (before'.insert table staged')) :
    Agree alike Eq (setRows table staged) (setRows table staged') :=
  fun before before' halike => .ok ⟨rfl, h before before' halike⟩

theorem agree_get : Agree alike alike (get : Staging Scratch) (get : Staging Scratch) :=
  fun _ _ halike => .ok ⟨halike, halike⟩

theorem Agree.ite {condition : Prop} [Decidable condition] {other : Staging α} {other' : Staging α'}
    (h : Agree alike answers write write') (h' : Agree alike answers other other') :
    Agree alike answers (if condition then write else other) (if condition then write' else other') := by
  split
  · exact h
  · exact h'

theorem agree_forM {items : List α} {each each' : α → Staging Unit}
    (h : ∀ item, Agree alike Eq (each item) (each' item)) :
    Agree alike Eq (items.forM each) (items.forM each') := by
  induction items with
  | nil => exact agree_pure rfl
  | cons item items ih => exact (h item).bind fun _ _ _ => ih

end Staging

namespace Database

theorem publish_eq {α : Type} (database : Database) (write : Staging α) :
    database.publish write = orFail (Staging.outcome write .empty) >>= fun result =>
      .ok (result.1, database.commit result.2) := by
  have hrun : write.run .empty = write .empty := rfl
  simp only [publish, Staging.outcome, hrun]
  rcases write .empty with ⟨error | answer, staged⟩ <;> rfl

/-- Writes that agree are published, or not, together. -/
theorem publish_agree {α α' : Type} {database database' : Database} {write : Staging α}
    {write' : Staging α'} {alike : Scratch → Scratch → Prop} {answers : α → α' → Prop}
    {snapshots : Database → Database → Prop} (h : Staging.Agree alike answers write write')
    (hempty : alike .empty .empty) (hcommit : ∀ staged staged', alike staged staged' →
      snapshots (database.commit staged) (database'.commit staged')) :
    Check.Agree (fun result result' => answers result.1 result'.1 ∧ snapshots result.2 result'.2)
      (database.publish write) (database'.publish write') := by
  rw [publish_eq, publish_eq]
  exact (h .empty .empty hempty).orFail.bind fun _ _ hresult =>
    .ok ⟨hresult.1, hcommit _ _ hresult.2⟩

end Database

end SnapshotSql
