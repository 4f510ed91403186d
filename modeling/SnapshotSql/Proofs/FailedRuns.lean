import SnapshotSql.Proofs.SuccessfulRuns

/-! # What a failed run tells about its steps

A sequence of checks fails at the first check that does, and a staged write is refused at the first
step that is. The steps before it have succeeded.
-/
namespace SnapshotSql

/-! ## Checks -/

namespace Check

variable {ε α β : Type}

theorem bind_eq_error {check : Except ε α} {next : α → Except ε β} {error : ε} :
    (check >>= next) = .error error ↔
      check = .error error ∨ ∃ value, check = .ok value ∧ next value = .error error := by
  cases check <;> simp [bind, Except.bind]

theorem pure_ne_error {value : α} {error : ε} : (pure value : Except ε α) ≠ .error error := nofun

theorem map_eq_error {check : Except ε α} {f : α → β} {error : ε} :
    check.map f = .error error ↔ check = .error error := by
  cases check <;> simp [Except.map]

theorem bind_pure_eq_error {check : Except ε α} {f : α → β} {error : ε} :
    (check >>= fun value => pure (f value)) = .error error ↔ check = .error error := by
  simp only [bind_eq_error, pure_ne_error, and_false, exists_false, or_false]

/-- A check of all elements fails at one of them. -/
theorem exists_of_forM_eq_error {check : α → Except ε Unit} {items : List α} {error : ε}
    (h : items.forM check = .error error) : ∃ item ∈ items, check item = .error error := by
  induction items with
  | nil => exact absurd h pure_ne_error
  | cons item items ih =>
    change (check item >>= fun _ => items.forM check) = _ at h
    rcases bind_eq_error.mp h with hfirst | ⟨_, -, hrest⟩
    · exact ⟨item, List.mem_cons_self, hfirst⟩
    · obtain ⟨other, hother, herror⟩ := ih hrest
      exact ⟨other, List.mem_cons_of_mem _ hother, herror⟩

theorem exists_of_foldlM_eq_error {step : β → α → Except ε β} {items : List α} {state : β} {error : ε}
    (h : items.foldlM step state = .error error) :
    ∃ item ∈ items, ∃ state, step state item = .error error := by
  induction items generalizing state with
  | nil => exact absurd h pure_ne_error
  | cons item items ih =>
    rw [List.foldlM_cons] at h
    rcases bind_eq_error.mp h with hfirst | ⟨_, -, hrest⟩
    · exact ⟨item, List.mem_cons_self, state, hfirst⟩
    · obtain ⟨other, hother, herror⟩ := ih hrest
      exact ⟨other, List.mem_cons_of_mem _ hother, herror⟩

/-- What fails as a check is a rejection. -/
theorem orFail_eq_error {check : Except SqlError α} {failure : Failure} :
    orFail check = .error failure ↔ ∃ error, failure = .rejected error ∧ check = .error error := by
  cases check with
  | ok value => simp [orFail]
  | error error => simp [orFail, eq_comm]

end Check

def Failure.IsEscape (failure : Failure) : Prop :=
  ∀ error, failure ≠ .rejected error

theorem Failure.isEscape_unreadableDigits : unreadableDigits.IsEscape := nofun

theorem Failure.isEscape_decimalOverflow : decimalOverflow.IsEscape := nofun

theorem Failure.IsEscape.orFail_ne {α : Type} {check : Except SqlError α} {failure : Failure}
    (h : failure.IsEscape) : orFail check ≠ .error failure := by
  intro hfail
  obtain ⟨error, heq, -⟩ := Check.orFail_eq_error.mp hfail
  exact h error heq

/-- What does not escape succeeds or is rejected. -/
theorem Check.ok_or_rejected_iff {α : Type} {check : Except Failure α} :
    ((∃ value, check = .ok value) ∨ ∃ error, check = .error (.rejected error)) ↔
      ¬ ∃ failure : Failure, failure.IsEscape ∧ check = .error failure := by
  constructor
  · rintro (⟨value, rfl⟩ | ⟨error, rfl⟩) ⟨failure, hescape, heq⟩
    · cases heq
    · cases heq
      exact hescape error rfl
  · intro hnone
    rcases check with (error | _ | _) | value
    · exact Or.inr ⟨error, rfl⟩
    · exact absurd ⟨_, Failure.isEscape_unreadableDigits, rfl⟩ hnone
    · exact absurd ⟨_, Failure.isEscape_decimalOverflow, rfl⟩ hnone
    · exact Or.inl ⟨value, rfl⟩

/-! ## Staged writes -/

namespace Staging

variable {α β : Type} {before : Scratch} {error : SqlError}

/-- A write that is refused with an error, whatever it has staged by then. -/
def Refused (write : Staging α) (before : Scratch) (error : SqlError) : Prop :=
  (write before).1 = .error error

@[simp] theorem refused_bind {write : Staging α} {next : α → Staging β} :
    Refused (write >>= next) before error ↔ Refused write before error ∨
      ∃ value middle, Runs write before value middle ∧ Refused (next value) middle error := by
  have hstep : (write >>= next) before =
      ExceptT.bindCont next (write before).1 (write before).2 := rfl
  simp only [Refused, Runs, hstep]
  rcases write before with ⟨found | value, middle⟩
  · constructor
    · intro h
      cases h
      exact Or.inl rfl
    · rintro (h | ⟨_, _, h, -⟩)
      · cases h
        rfl
      · cases h
  · constructor
    · exact fun h => Or.inr ⟨value, middle, rfl, h⟩
    · rintro (h | ⟨_, _, h, hnext⟩)
      · cases h
      · cases h
        exact hnext

@[simp] theorem refused_pure {value : α} : ¬ Refused (pure value) before error :=
  nofun

@[simp] theorem refused_check {result : Except SqlError α} :
    Refused (check result) before error ↔ result = .error error :=
  Iff.rfl

@[simp] theorem refused_throw {thrown : SqlError} :
    Refused (throw thrown : Staging α) before error ↔ thrown = error :=
  Except.error.injEq thrown error ▸ Iff.rfl

@[simp] theorem refused_rows {database : Database} {table : Text} :
    ¬ Refused (rows database table) before error :=
  nofun

@[simp] theorem refused_setRows {table : Text} {staged : List Row} :
    ¬ Refused (setRows table staged) before error :=
  nofun

@[simp] theorem refused_get : ¬ Refused (get : Staging Scratch) before error :=
  nofun

theorem exists_of_refused_forM {write : α → Staging Unit} {items : List α}
    (h : Refused (items.forM write) before error) :
    ∃ item ∈ items, ∃ middle, Refused (write item) middle error := by
  induction items generalizing before with
  | nil => exact absurd h refused_pure
  | cons item items ih =>
    change Refused (write item >>= fun _ => items.forM write) before error at h
    rcases refused_bind.mp h with hfirst | ⟨_, middle, -, hrest⟩
    · exact ⟨item, List.mem_cons_self, before, hfirst⟩
    · obtain ⟨other, hother, herror⟩ := ih hrest
      exact ⟨other, List.mem_cons_of_mem _ hother, herror⟩

end Staging

/-- A write that is not published has been refused. -/
theorem Database.publish_eq_error {α : Type} {database : Database} {write : Staging α}
    {failure : Failure} : database.publish write = .error failure ↔
      ∃ error, failure = .rejected error ∧ Staging.Refused write .empty error := by
  simp only [publish, Staging.Refused, ExceptT.run]
  rcases write .empty with ⟨error | value, scratch⟩
  · simp [eq_comm]
  · simp

end SnapshotSql
