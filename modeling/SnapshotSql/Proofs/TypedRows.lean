import SnapshotSql.Proofs.Transitions

/-! # Rows that have been cast

A row that is cast to the columns of a table holds the cast of each value that it had under one of their
names, and nothing else. The row after an assignment holds the cast of the value assigned last.
-/
namespace SnapshotSql

variable {columns : List Column} {row typed result : Row} {name : Text}

theorem get?_castColumns_of_notMem (h : castColumns row typed columns = .ok result)
    (hnot : name ∉ columns.map (·.name)) : result.get? name = typed.get? name := by
  induction columns generalizing typed with
  | nil =>
    cases h
    rfl
  | cons column columns ih =>
    rw [List.map_cons, List.mem_cons, not_or] at hnot
    unfold castColumns at h
    split at h
    · exact ih h hnot.2
    · obtain ⟨value, -, h⟩ := Check.bind_eq_ok.mp h
      rw [ih h hnot.2, OrderedMap.get?_insert, if_neg hnot.1]

/-- Each value of the result was there before, or it is the cast of a value to a column of its name. -/
theorem cast_of_get?_castColumns (h : castColumns row typed columns = .ok result) {value : Scalar}
    (hvalue : result.get? name = some value) : typed.get? name = some value ∨
      ∃ column ∈ columns, column.name = name ∧ ∃ source : Scalar, source.castTo column.type = .ok value := by
  induction columns generalizing typed with
  | nil =>
    cases h
    exact Or.inl hvalue
  | cons column columns ih =>
    unfold castColumns at h
    split at h
    · exact (ih h).imp_right fun ⟨found, hmem, hfound⟩ => ⟨found, List.mem_cons_of_mem _ hmem, hfound⟩
    · obtain ⟨cast, hcast, h⟩ := Check.bind_eq_ok.mp h
      rcases ih h with hold | ⟨found, hmem, hfound⟩
      · rw [OrderedMap.get?_insert] at hold
        split at hold
        · next heq =>
          cases hold
          exact Or.inr ⟨column, List.mem_cons_self, heq.symm, _, hcast⟩
        · exact Or.inl hold
      · exact Or.inr ⟨found, List.mem_cons_of_mem _ hmem, hfound⟩

/-- Under the name of a column the result holds the cast of the value that was there. -/
theorem get?_castColumns (h : castColumns row typed columns = .ok result)
    (hnodup : (columns.map (·.name)).Nodup) {column : Column} (hcolumn : column ∈ columns)
    {source : Scalar} (hsource : row.get? column.name = some source) :
    ∃ value, source.castTo column.type = .ok value ∧ result.get? column.name = some value := by
  induction columns generalizing typed with
  | nil => cases hcolumn
  | cons first columns ih =>
    obtain ⟨hnew, hnodup⟩ := List.nodup_cons.mp hnodup
    unfold castColumns at h
    rcases List.mem_cons.mp hcolumn with rfl | hmem
    · rw [hsource] at h
      obtain ⟨value, hvalue, h⟩ := Check.bind_eq_ok.mp h
      refine ⟨value, hvalue, ?_⟩
      rw [get?_castColumns_of_notMem h hnew, OrderedMap.get?_insert, if_pos rfl]
    · split at h
      · exact ih h hnodup hmem
      · obtain ⟨_, -, h⟩ := Check.bind_eq_ok.mp h
        exact ih h hnodup hmem

/-- A name that a row lacks is missing from the result too. -/
theorem get?_castColumns_of_none (h : castColumns row typed columns = .ok result) (hnone : row.get? name = none) :
    result.get? name = typed.get? name := by
  induction columns generalizing typed with
  | nil =>
    cases h
    rfl
  | cons column columns ih =>
    unfold castColumns at h
    split at h
    · exact ih h
    · next value hvalue =>
      obtain ⟨_, -, h⟩ := Check.bind_eq_ok.mp h
      have hother : name ≠ column.name := by
        rintro rfl
        rw [hnone] at hvalue
        cases hvalue
      rw [ih h, OrderedMap.get?_insert, if_neg hother]

/-! ## Assignments -/

/-- The expression that an UPDATE assigns to a column: of several the last one counts. -/
def Update.assigned? (update : Update) (name : Text) : Option SetExpression :=
  (update.assignments.reverse.find? (·.column = name)).map (·.expression)

theorem get?_foldl_assignments (assignments : List Assignment) (source row : Row) (name : Text) :
    (assignments.foldl (fun updated assignment =>
      updated.insert assignment.column (assignment.expression.value source)) row).get? name =
      ((assignments.reverse.find? (·.column = name)).map (·.expression.value source)).or
        (row.get? name) := by
  induction assignments generalizing row with
  | nil => rfl
  | cons assignment assignments ih =>
    rw [List.foldl_cons, ih, List.reverse_cons, List.find?_append, OrderedMap.get?_insert]
    by_cases heq : assignment.column = name
    · cases assignments.reverse.find? (·.column = name) <;> simp [heq]
    · cases assignments.reverse.find? (·.column = name) <;> simp [heq, Ne.symm heq]

/-- The assigned row holds the cast of the value that the expression has in the row before. -/
theorem Database.get?_assign {schema : TableSchema} {update : Update} {expression : SetExpression}
    {assigned : Row} (hassign : assign schema update.assignments row = .ok assigned)
    (hnodup : schema.columnNames.Nodup) {column : Column} (hcolumn : column ∈ schema.columns)
    (hexpression : update.assigned? column.name = some expression) :
    ∃ value, (expression.value row).castTo column.type = .ok value ∧
      assigned.get? column.name = some value := by
  refine get?_castColumns hassign hnodup hcolumn ?_
  obtain ⟨assignment, hfound, rfl⟩ := Option.map_eq_some_iff.mp hexpression
  rw [Database.assigned, get?_foldl_assignments, hfound]
  rfl

end SnapshotSql
