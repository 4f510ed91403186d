import SnapshotSql.Proofs.DeleteTraces
import SnapshotSql.Proofs.FailedRuns

/-! # Refused DELETEs

The cascades of a DELETE are refused at the first question that cannot be answered: a foreign key that
restricts, and rows outside the waves that refer to a key which the wave takes away. The questions
before it have been answered, which is a trace. Only the limit of the depth refuses otherwise.
-/
namespace SnapshotSql.Integrity

variable {database : Database} {before : Scratch} {error : SqlError} {waves : List Wave}

/-- A question that rows are in the way of, and the error that tells how many. -/
structure Question.Restricts (database : Database) (state : Progress) (question : Question Wave)
    (error : SqlError) : Prop extends question.Asked database state where
  restrict : question.foreignKey.onDelete = .restrict
  affected : ∃ parents, (parents = database.tableRows question.about.table ∨
      parents = state.rows database question.about.table) ∧
    question.affected database state parents ≠ [] ∧
    error = .blocked (.restrictedDelete question.about.table
      (question.affected database state parents).length question.child
      (question.foreignKey.describe question.child))

/-- The cascades come to a question that cannot be answered, after some that can. -/
def RestrictedAfter (database : Database) (first : Progress) (error : SqlError) : Prop :=
  ∃ questions state question, DeleteTrace database first questions state ∧
    Question.Restricts database state question error

theorem RestrictedAfter.of_trace {first middle : Progress} {questions : List (Question Wave)}
    (htrace : DeleteTrace database first questions middle)
    (h : RestrictedAfter database middle error) : RestrictedAfter database first error := by
  obtain ⟨more, state, question, hmore, hrestricts⟩ := h
  exact ⟨questions ++ more, state, question, htrace.append hmore, hrestricts⟩

theorem of_refused_answerDelete {wave : Wave} {parents : List Row} {child : Text}
    {foreignKey : ForeignKey}
    (h : Staging.Refused (answerDelete database waves wave parents child foreignKey) before error) :
    foreignKey.onDelete = .restrict ∧
      Question.affected database ⟨wave, child, foreignKey⟩ ⟨waves, before⟩ parents ≠ [] ∧
      error = .blocked (.restrictedDelete wave.table
        (Question.affected database ⟨wave, child, foreignKey⟩ ⟨waves, before⟩ parents).length child
        (foreignKey.describe child)) := by
  simp only [answerDelete, Staging.refused_bind, Staging.refused_rows, Staging.runs_rows,
    false_or] at h
  obtain ⟨_, _, ⟨rfl, rfl⟩, h⟩ := h
  simp only [Question.affected, Progress.rows]
  generalize referringTo foreignKey _ (Staging.rowsIn database _ child) _ = positions at h ⊢
  by_cases hnone : positions = []
  · rw [if_pos (List.isEmpty_iff.mpr hnone)] at h
    exact absurd h Staging.refused_pure
  · rw [if_neg fun hempty => hnone (List.isEmpty_iff.mp hempty)] at h
    cases haction : foreignKey.onDelete with
    | restrict =>
      simp only [haction, Staging.refused_throw] at h
      exact ⟨rfl, hnone, h.symm⟩
    | cascade =>
      simp only [haction] at h
      exact absurd h Staging.refused_pure
    | setNull =>
      simp only [haction, Staging.refused_bind, Staging.refused_setRows, Staging.refused_pure,
        and_false, exists_false, or_false] at h

/-- Of a list of foreign keys the first one is refused, or it is answered and one of the others is. -/
theorem of_refused_spreadDelete_cons {wave : Wave} {staged : Bool} {child : Text}
    {foreignKey : ForeignKey} {references : List (Text × ForeignKey)}
    (h : Staging.Refused (spreadDelete database wave staged ((child, foreignKey) :: references) waves)
      before error) :
    Staging.Refused (answerDelete database waves wave (parentRows database wave staged before) child
        foreignKey) before error ∨
      ∃ answer middle,
        Staging.Runs (answerDelete database waves wave (parentRows database wave staged before) child
          foreignKey) before answer middle ∧
        Staging.Refused (spreadDelete database wave staged references (waves ++ answer.toList))
          middle error := by
  unfold spreadDelete at h
  extract_lets spread at h
  have hspread : Staging.Refused (spread (parentRows database wave staged before)) before error := by
    cases staged with
    | false =>
      simp only [Bool.false_eq_true, if_false, Staging.refused_bind, Staging.refused_pure,
        Staging.runs_pure, false_or] at h
      obtain ⟨_, _, ⟨rfl, rfl⟩, h⟩ := h
      exact h
    | true =>
      simp only [if_true, Staging.refused_bind, Staging.refused_rows, Staging.runs_rows, false_or] at h
      obtain ⟨_, _, ⟨rfl, rfl⟩, h⟩ := h
      exact h
  refine (Staging.refused_bind.mp hspread).imp_right ?_
  rintro ⟨answer, middle, hanswer, hrest⟩
  refine ⟨answer, middle, hanswer, ?_⟩
  cases answer with
  | none => rwa [Option.toList_none, List.append_nil]
  | some later =>
    simp only [Staging.refused_bind, Staging.refused_pure, and_false, exists_false, or_false] at hrest
    exact hrest

theorem of_refused_spreadDelete {wave : Wave} {staged : Bool} {references : List (Text × ForeignKey)}
    (hwave : wave ∈ waves)
    (hreferences : ∀ reference ∈ references, reference ∈ database.referencing wave.table)
    (h : Staging.Refused (spreadDelete database wave staged references waves) before error) :
    RestrictedAfter database ⟨waves, before⟩ error := by
  induction references generalizing waves before with
  | nil => exact absurd h Staging.refused_pure
  | cons reference references ih =>
    obtain ⟨hfirst, hrest⟩ := List.forall_mem_cons.mp hreferences
    obtain ⟨hmem, htable⟩ := (Database.mem_referencing ..).mp hfirst
    obtain hrefused | ⟨answer, middle, hanswer, hmore⟩ := of_refused_spreadDelete_cons h
    · obtain ⟨hrestrict, haffected, herror⟩ := of_refused_answerDelete hrefused
      exact ⟨[], ⟨waves, before⟩, ⟨wave, reference.1, reference.2⟩, .nil _,
        ⟨⟨hwave, hmem, htable⟩, hrestrict, _, parentRows_eq .., haffected, herror⟩⟩
    · have hstep : DeleteStep database ⟨waves, before⟩ ⟨wave, reference.1, reference.2⟩
          ⟨waves ++ answer.toList, middle⟩ :=
        ⟨hwave, hmem, htable, _, parentRows_eq .., answer_of_runs hanswer⟩
      exact .of_trace (.cons hstep (.nil _)) (ih (List.mem_append_left _ hwave) hrest hmore)

theorem of_refused_deleteDepth {level : List Wave} (hlevel : ∀ wave ∈ level, wave ∈ waves)
    (h : Staging.Refused (deleteDepth database level waves) before error) :
    RestrictedAfter database ⟨waves, before⟩ error := by
  induction level generalizing waves before with
  | nil => exact absurd h Staging.refused_pure
  | cons wave level ih =>
    have hwave := hlevel wave List.mem_cons_self
    simp only [deleteDepth, Staging.refused_bind, Staging.refused_get, Staging.runs_get,
      Staging.refused_pure, and_false, exists_false, or_false, false_or] at h
    obtain ⟨_, _, ⟨rfl, rfl⟩, hspread | ⟨spread, middle, hspread, hmore⟩⟩ := h
    · exact of_refused_spreadDelete hwave (fun _ h => h) hspread
    · have hothers : ∀ other ∈ level, other ∈ waves ++ spread := fun other hother =>
        List.mem_append_left _ (hlevel other (List.mem_cons_of_mem _ hother))
      exact .of_trace (trace_of_spreadDelete hwave (fun _ h => h) hspread) (ih hothers hmore)

/-- The cascades are refused by a question, or because they reach the limit of the depth. -/
theorem of_refused_deleteWaves {limit : Int} {depths : Nat} {level : List Wave}
    (hlevel : ∀ wave ∈ level, wave ∈ waves)
    (h : Staging.Refused (deleteWaves database limit depths level waves) before error) :
    RestrictedAfter database ⟨waves, before⟩ error ∨
      error = .blocked (.depthLimit "DELETE" limit) := by
  induction depths generalizing level waves before with
  | zero =>
    cases level with
    | nil => exact absurd h Staging.refused_pure
    | cons wave level => exact Or.inr (Staging.refused_throw.mp h).symm
  | succ depths ih =>
    cases level with
    | nil => exact absurd h Staging.refused_pure
    | cons wave level =>
      simp only [deleteWaves, Staging.refused_bind] at h
      obtain hdepth | ⟨next, middle, hnext, h⟩ := h
      · exact Or.inl (of_refused_deleteDepth hlevel hdepth)
      · have hall : ∀ other ∈ next, other ∈ waves ++ next := fun _ => List.mem_append_right _
        exact (ih hall h).imp_left (.of_trace (trace_of_deleteDepth hlevel hnext))

theorem not_refused_removals {tables : List Text} :
    ¬ Staging.Refused (tables.forM (removeDoomed database waves)) before error := by
  intro h
  obtain ⟨_, -, _, h⟩ := Staging.exists_of_refused_forM h
  unfold removeDoomed at h
  dsimp only at h
  split at h <;> simp at h

/-- A DELETE is refused by a question of its cascades, or because they reach the limit of the depth. -/
theorem of_refused_delete {limit : Int} {table : Text} {positions : List Nat}
    (h : Staging.Refused (delete database limit table positions) .empty error) :
    RestrictedAfter database ⟨[⟨table, positions⟩], .empty⟩ error ∨
      error = .blocked (.depthLimit "DELETE" limit) := by
  simp only [delete, Staging.refused_bind, not_refused_removals, Staging.refused_pure, and_false,
    exists_false, or_false] at h
  exact of_refused_deleteWaves (fun _ hmem => hmem) h

end SnapshotSql.Integrity
