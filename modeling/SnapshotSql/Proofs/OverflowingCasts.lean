import SnapshotSql.Proofs.FailedRuns

/-! # Casts that leave the range of floats

A cast fails in one way only. A DECIMAL multiplies the number by a power of ten, and there is no answer
if the power or the product is no finite float. So a row has no typed form exactly if the value of one
of its DECIMAL columns is that large, an INSERT fails at the first tuple with such a row, and an UPDATE
if the assignments bring such a row about.
-/
namespace SnapshotSql

/-- Where both steps fail in one way only, a sequence does so if one of them does. -/
theorem Check.bind_eq_error_of_only {ε α β : Type} {check : Except ε α} {next : α → Except ε β}
    {only error : ε} {first later : Prop} (hfirst : ∀ error, check = .error error ↔ error = only ∧ first)
    (hnext : ∀ value, next value = .error error ↔ error = only ∧ later) :
    (check >>= next) = .error error ↔ error = only ∧ (first ∨ later) := by
  rw [bind_eq_error, hfirst]
  cases hcheck : check with
  | error other =>
    have hother := (hfirst other).mp hcheck
    simp [hother.2]
  | ok value =>
    have hnone : ¬ first := fun h => by simpa [hcheck] using (hfirst only).mpr ⟨rfl, h⟩
    simp [hnone, hnext]

namespace Scalar

def LeavesRange (number : Binary64) (scale : Nat) : Prop :=
  308 < scale ∨ ((number.mul (.ofInt (Binary64.tenPow scale))).add
    (.ofQuotient false Binary64.one 2)).isFinite = false

theorem roundToScale_eq_error {number : Binary64} {scale : Nat} {failure : Failure} :
    roundToScale number scale = .error failure ↔
      failure = .decimalOverflow ∧ LeavesRange number scale := by
  have hfloor (sum : Binary64) : sum.floor? = none ↔ sum.isFinite = false := by
    cases sum with
    | finite negative units hunits => exact iff_of_false (Option.some_ne_none _) nofun
    | _ => exact iff_of_true rfl rfl
  simp only [roundToScale, LeavesRange, ← hfloor]
  split
  · next hscale => simp [hscale, eq_comm]
  · next hscale =>
    split
    · next hsome => simp [hscale, hsome]
    · next hnone => simp [hnone, eq_comm]

inductive Overflows (value : Scalar) : ColumnType → Prop where
  | decimal {precision scale : Nat} (hvalue : value ≠ .null)
      (hrange : LeavesRange (if value.asFloat.isFinite then value.asFloat else .zero) scale) :
      Overflows value (.decimal precision scale)

theorem castTo_eq_error {value : Scalar} {type : ColumnType} {failure : Failure} :
    value.castTo type = .error failure ↔ failure = .decimalOverflow ∧ value.Overflows type := by
  have hdecimal (precision scale : Nat) : value.Overflows (.decimal precision scale) ↔ value ≠ .null ∧
      LeavesRange (if value.asFloat.isFinite then value.asFloat else .zero) scale := by
    constructor
    · rintro ⟨hvalue, hrange⟩
      exact ⟨hvalue, hrange⟩
    · exact fun ⟨hvalue, hrange⟩ => .decimal hvalue hrange
  have hother (h : type.typeName ≠ .decimal) : ¬ value.Overflows type := by
    rintro ⟨-, -⟩
    exact h rfl
  have hmap (number : Binary64) (scale : Nat) :
      (roundToScale number scale).map Scalar.float = .error failure ↔
        failure = .decimalOverflow ∧ LeavesRange number scale := by
    rw [← roundToScale_eq_error]
    cases roundToScale number scale <;> simp [Except.map]
  cases type with
  | decimal precision scale =>
    rw [hdecimal]
    cases value <;> simp [castTo, asDecimal, hmap]
  | _ => cases value <;> simp [castTo, hother (by simp [ColumnType.typeName])]

example : (Scalar.int (10 ^ 308)).castTo (.decimal 10 2) = .error .decimalOverflow := by decide +kernel

end Scalar

def RowOverflows (columns : List Column) (row : Row) : Prop :=
  ∃ column ∈ columns, ∃ value, row.get? column.name = some value ∧ value.Overflows column.type

theorem castRow_eq_error {columns : List Column} {row : Row} {failure : Failure} :
    castRow columns row = .error failure ↔ failure = .decimalOverflow ∧ RowOverflows columns row := by
  unfold castRow
  generalize OrderedMap.empty = typed
  induction columns generalizing typed with
  | nil => simp [castColumns, RowOverflows]
  | cons column columns ih =>
    have hcons : RowOverflows (column :: columns) row ↔
        (∃ value, row.get? column.name = some value ∧ value.Overflows column.type) ∨
          RowOverflows columns row := by
      simp [RowOverflows]
    rw [hcons, castColumns]
    cases hvalue : row.get? column.name with
    | none => simp [ih]
    | some value =>
      simp only [Option.some.injEq, exists_eq_left']
      exact Check.bind_eq_error_of_only (fun _ => Scalar.castTo_eq_error) fun _ => ih ..

namespace Database

variable {schema : TableSchema} {failure : Failure}

/-- A tuple has a value for each of the columns that it fills. -/
def TupleFits (schema : TableSchema) (listed : Option (List Text)) (values : List Scalar) : Prop :=
  (insertColumns schema listed values.length).length = values.length

/-- The row of a tuple has no typed form. -/
def TupleOverflows (schema : TableSchema) (listed : Option (List Text)) (values : List Scalar) : Prop :=
  RowOverflows schema.columns (.ofList ((insertColumns schema listed values.length).zip values))

/-- Tuples have no typed rows if one of them does not fit, which is rejected, or if the first such
tuple is preceded by one that overflows. -/
theorem typedRows_eq_error (hescape : failure.IsEscape) {listed : Option (List Text)} {number : Nat}
    {tuples : List (List Scalar)} :
    typedRows schema listed number tuples = .error failure ↔ failure = .decimalOverflow ∧
      ∃ earlier values later, tuples = earlier ++ values :: later ∧
        (∀ tuple ∈ earlier, TupleFits schema listed tuple) ∧
        TupleFits schema listed values ∧ TupleOverflows schema listed values := by
  induction tuples generalizing number with
  | nil => simp [typedRows, Check.pure_ne_error]
  | cons values tuples ih =>
    have hcons : (∃ earlier found later, values :: tuples = earlier ++ found :: later ∧
        (∀ tuple ∈ earlier, TupleFits schema listed tuple) ∧
          TupleFits schema listed found ∧ TupleOverflows schema listed found) ↔
        TupleFits schema listed values ∧ (TupleOverflows schema listed values ∨
          ∃ earlier found later, tuples = earlier ++ found :: later ∧
            (∀ tuple ∈ earlier, TupleFits schema listed tuple) ∧
              TupleFits schema listed found ∧ TupleOverflows schema listed found) := by
      constructor
      · rintro ⟨_ | ⟨first, earlier⟩, found, later, heq, hearlier, hfits, hover⟩
        · cases heq
          exact ⟨hfits, Or.inl hover⟩
        · cases heq
          obtain ⟨hfirst, hearlier⟩ := List.forall_mem_cons.mp hearlier
          exact ⟨hfirst, Or.inr ⟨earlier, found, later, rfl, hearlier, hfits, hover⟩⟩
      · rintro ⟨hfits, hover | ⟨earlier, found, later, rfl, hearlier, hfound, hover⟩⟩
        · exact ⟨[], values, tuples, rfl, nofun, hfits, hover⟩
        · exact ⟨values :: earlier, found, later, rfl, List.forall_mem_cons.mpr ⟨hfits, hearlier⟩,
            hfound, hover⟩
    rw [hcons, typedRows]
    dsimp only
    split
    · next hmisses =>
      have hnone : orFail (invalid (.valueCount number
          (insertColumns schema listed values.length).length values.length)) ≠
            (.error failure : Except Failure Unit) := hescape.orFail_ne
      simp [TupleFits, hmisses, Check.bind_eq_error, hnone]
    · next hfits =>
      have hfits : TupleFits schema listed values := not_not.mp hfits
      rw [Check.bind_eq_error_of_only (fun _ => castRow_eq_error) fun _ =>
        Check.bind_pure_eq_error.trans ih]
      simp [hfits, TupleOverflows]

/-- The row that the assignments of an UPDATE make of a row has no typed form. -/
def AssignmentOverflows (schema : TableSchema) (update : Update) (row : Row) : Prop :=
  update.condition.all (·.holds row) ∧
    RowOverflows schema.columns (assigned update.assignments row)

theorem changesFrom_eq_error {update : Update} {position : Nat} {rows : List Row} :
    changesFrom schema update position rows = .error failure ↔
      failure = .decimalOverflow ∧ ∃ row ∈ rows, AssignmentOverflows schema update row := by
  induction rows generalizing position with
  | nil => simp [changesFrom, Check.pure_ne_error]
  | cons row rows ih =>
    rw [changesFrom, List.exists_mem_cons_iff]
    split
    · next hholds =>
      simp only [AssignmentOverflows, hholds, true_and]
      refine Check.bind_eq_error_of_only (fun _ => castRow_eq_error) fun _ => ?_
      rw [Check.bind_pure_eq_error, ih]
      rfl
    · next hfails => simp [ih, AssignmentOverflows, hfails]

end Database

end SnapshotSql
