import SnapshotSql.Execution
import SnapshotSql.Proofs.ParallelWrites
import Mathlib.Data.List.TakeWhile

/-! # Rows with nulls in place of missing columns

A row may lack columns of its table, and every lookup reads a null there. A padded row has nulls under
some of them. It holds the same values, and reads the same under qualified names as long as no column has
a point in its name: else the missing column would be looked for behind its qualifier, and the null not.
Casts and assignments leave padded rows padded.
-/
namespace SnapshotSql

/-- A name without a point has no qualifier. -/
theorem splitQualified_eq_none_iff (name : Text) : splitQualified name = none ↔ .char '.' ∉ name := by
  have hinside : name.reverse.dropWhile (fun c => decide (c ≠ .char '.')) = [] ↔ .char '.' ∉ name := by
    rw [List.dropWhile_eq_nil_iff]
    simp only [List.mem_reverse, decide_eq_true_eq]
    exact ⟨fun h hmem => h _ hmem rfl, fun h c hmem heq => h (heq ▸ hmem)⟩
  unfold splitQualified
  dsimp only
  split
  · next hnil => exact ⟨fun _ => hinside.mp hnil, fun _ => rfl⟩
  · next hcons =>
    refine ⟨nofun, fun hnot => ?_⟩
    rw [hinside.mpr hnot] at hcons
    cases hcons

namespace Row

/-- The second row holds what the first one does, and nulls under some columns that the first one lacks. -/
def Padded (columns : List Text) (row padded : Row) : Prop :=
  ∀ name, padded.get? name = row.get? name ∨
    name ∈ columns ∧ row.get? name = none ∧ padded.get? name = some .null

variable {columns : List Text} {row padded : Row}

theorem padded_refl (columns : List Text) (row : Row) : Padded columns row row :=
  fun _ => Or.inl rfl

theorem Padded.sameValues (h : Padded columns row padded) : row.SameValues padded := by
  intro name
  rcases h name with hsame | ⟨-, hnone, hnull⟩
  · rw [value, value, hsame]
  · rw [value, value, hnone, hnull]
    rfl

theorem Padded.insert (h : Padded columns row padded) (name : Text) (value : Scalar) :
    Padded columns (row.insert name value) (padded.insert name value) := by
  intro other
  rw [OrderedMap.get?_insert, OrderedMap.get?_insert]
  split
  · exact Or.inl rfl
  · exact h other

theorem congruence_padded (columns : List Text) : Congruence (Padded columns) :=
  ⟨padded_refl columns, fun _ _ => Padded.sameValues, fun _ _ name value h => h.insert name value⟩

/-- A column that is missing is read as null, and so is one that is null, unless a point in its name leads on. -/
theorem Padded.readsAlike (h : Padded columns row padded) (hplain : ∀ name ∈ columns, .char '.' ∉ name) :
    row.ReadsAlike padded := by
  refine ⟨h.sameValues, fun name => ?_⟩
  rcases h name with hsame | ⟨hcolumn, hnone, hnull⟩
  · simp only [resolve, hsame, h.sameValues _]
  · have hbare := (splitQualified_eq_none_iff name).mpr (hplain name hcolumn)
    simp only [resolve, hnone, hnull, hbare]

/-! ## Casts and assignments -/

/-- Columns that the typed row has yet to get are missing from it. -/
theorem Padded.agree_castColumns (h : Padded columns row padded) {typed typed' : Row}
    (htyped : Padded columns typed typed')
    (hmissing : ∀ name, row.get? name = none → typed.get? name = none) (casts : List Column) :
    Check.Agree (Padded columns) (castColumns row typed casts) (castColumns padded typed' casts) := by
  induction casts generalizing typed typed' with
  | nil => exact .ok htyped
  | cons column casts ih =>
    unfold castColumns
    rcases h column.name with hsame | ⟨hcolumn, hnone, hnull⟩
    · rw [hsame]
      cases hvalue : row.get? column.name with
      | none => exact ih htyped hmissing
      | some value =>
        refine (Check.agree_of_eq rfl).bind fun cast _ heq => ?_
        subst heq
        refine ih (htyped.insert _ _) fun name hname => ?_
        have hother : name ≠ column.name := fun heq => by simp [← heq, hname] at hvalue
        rw [OrderedMap.get?_insert, if_neg hother, hmissing name hname]
    · rw [hnone, hnull]
      -- The null is cast to itself and put under a column that the typed row of the other side lacks.
      refine ih (fun name => ?_) hmissing
      rw [OrderedMap.get?_insert]
      split
      · next heq => exact Or.inr ⟨heq ▸ hcolumn, hmissing _ (heq ▸ hnone), rfl⟩
      · exact htyped name

theorem Padded.agree_assign (h : Padded columns row padded) (hplain : ∀ name ∈ columns, .char '.' ∉ name)
    (schema : TableSchema) (assignments : List Assignment) :
    Check.Agree (Padded columns) (Database.assign schema assignments row)
      (Database.assign schema assignments padded) := by
  have hassigned : ∀ source target : Row, assignments.foldl (fun updated assignment =>
      updated.insert assignment.column (assignment.expression.value source)) target =
      (assignments.map fun assignment => (assignment.column, assignment.expression.value source)).foldl
        (fun row entry => row.insert entry.1 entry.2) target := fun source target => by rw [List.foldl_map]
  have hvalues : (assignments.map fun assignment => (assignment.column, assignment.expression.value row)) =
      assignments.map fun assignment => (assignment.column, assignment.expression.value padded) :=
    List.map_congr_left fun assignment _ => by
      rw [assignment.expression.value_congr (h.readsAlike hplain)]
  unfold Database.assign Database.assigned castRow
  rw [hassigned, hassigned, hvalues]
  exact ((congruence_padded columns).foldl_insert _ h).agree_castColumns (padded_refl columns _)
    (fun _ _ => rfl) _

/-! ## Filling -/

def filled (columns : List Text) (row : Row) : Row :=
  columns.foldl (fun row name => if row.contains name then row else row.insert name .null) row

theorem get?_filled (columns : List Text) (row : Row) (name : Text) : (filled columns row).get? name =
    (row.get? name).or (if name ∈ columns then some .null else none) := by
  induction columns generalizing row with
  | nil => simp [filled]
  | cons column columns ih =>
    have hstep : (row.filled (column :: columns)) =
        (if row.contains column then row else row.insert column .null).filled columns := rfl
    rw [hstep, ih]
    by_cases hthere : row.contains column = true
    · obtain ⟨value, hvalue⟩ := (OrderedMap.contains_iff ..).mp hthere
      by_cases heq : name = column
      · simp [hthere, heq, hvalue]
      · simp [hthere, heq]
    · have hnone : row.get? column = none := by
        simpa [OrderedMap.contains] using hthere
      by_cases heq : name = column
      · simp [hthere, heq, hnone]
      · simp [hthere, heq]

theorem padded_filled (columns : List Text) (row : Row) : Padded columns row (filled columns row) := by
  intro name
  rw [get?_filled]
  cases row.get? name with
  | some value => exact Or.inl rfl
  | none =>
    by_cases hcolumn : name ∈ columns
    · exact Or.inr ⟨hcolumn, rfl, by simp [hcolumn]⟩
    · exact Or.inl (by simp [hcolumn])

/-- Rows with the same value under the same columns, whatever the order in which they list them. -/
def Same (row other : Row) : Prop :=
  ∀ name, row.get? name = other.get? name

/-- Padding makes no difference once all columns are filled. -/
theorem Padded.filled_same (h : Padded columns row padded) :
    Same (row.filled columns) (padded.filled columns) := by
  intro name
  rw [get?_filled, get?_filled]
  rcases h name with hsame | ⟨hcolumn, hnone, hnull⟩
  · rw [hsame]
  · simp [hcolumn, hnone, hnull]

end Row

end SnapshotSql
