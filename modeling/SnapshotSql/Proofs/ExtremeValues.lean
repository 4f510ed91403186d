import SnapshotSql.Proofs.OrderedRows

/-! # Extreme values

MIN and MAX go through the values of a column and keep the best one so far, which only a strictly better one
replaces. ORDER BY sorts the rows, and those whose values tie stay in the order of the table. Both come to the
first of the best values, even where it ties with others of another kind.
-/
namespace SnapshotSql

namespace Aggregate

variable {beats : Scalar → Scalar → Bool} {values front back : List Scalar} {value : Scalar}

private theorem foldl_mem (first : Scalar) (values : List Scalar) :
    values.foldl (fun best value => if beats value best then value else best) first ∈ first :: values := by
  induction values generalizing first with
  | nil => exact List.mem_cons_self
  | cons value values ih =>
    rw [List.foldl_cons]
    split
    · exact List.mem_cons_of_mem first (ih value)
    · rcases List.mem_cons.mp (ih first) with hfirst | hrest
      · rw [hfirst]
        exact List.mem_cons_self
      · exact List.mem_cons_of_mem first (List.mem_cons_of_mem value hrest)

theorem best_mem (hne : values ≠ []) : best beats values ∈ values := by
  cases values with
  | nil => exact absurd rfl hne
  | cons first values => exact foldl_mem first values

/-- The best value beats all values in front of it, and none behind it beats the value. -/
theorem best_append (hfront : ∀ other ∈ front, beats value other = true)
    (hback : ∀ other ∈ back, beats other value = false) : best beats (front ++ value :: back) = value := by
  have hkeep : back.foldl (fun best value => if beats value best then value else best) value = value := by
    induction back with
    | nil => rfl
    | cons other back ih =>
      obtain ⟨hother, hback⟩ := List.forall_mem_cons.mp hback
      rw [List.foldl_cons, hother]
      exact ih hback
  cases front with
  | nil => exact hkeep
  | cons first front =>
    rw [List.cons_append, best, List.foldl_append, List.foldl_cons, hfront _ (foldl_mem first front)]
    exact hkeep

/-- The best value is the first one of the sorted values. -/
theorem head?_sort (h : Sorting.StrictWeakOn beats values) (hne : values ≠ []) :
    (Sorting.sort beats values).head? = some (best beats values) := by
  obtain ⟨front, value, back, heq, hhead, hfront, hback⟩ := Sorting.exists_head?_sort h hne
  rw [hhead, heq, best_append hfront hback]

theorem mem_present {rows : List Row} {column : Text} :
    value ∈ present rows column ↔ (∃ row ∈ rows, row.resolve column = value) ∧ value ≠ .null := by
  have hnull : (!value.isNull) = true ↔ value ≠ .null := by
    cases value <;> simp [Scalar.isNull]
  rw [present, List.mem_filter, List.mem_map, hnull]

theorem present_eq_nil_iff {rows : List Row} {column : Text} :
    present rows column = [] ↔ ∀ row ∈ rows, row.resolve column = .null := by
  rw [List.eq_nil_iff_forall_not_mem]
  simp only [mem_present]
  constructor
  · intro h row hrow
    by_contra hne
    exact h _ ⟨⟨row, hrow, rfl⟩, hne⟩
  · rintro h value ⟨⟨row, hrow, rfl⟩, hne⟩
    exact hne (h row hrow)

/-- Nothing is best only where there is nothing. -/
theorem best_present_eq_null_iff {rows : List Row} {column : Text} :
    best beats (present rows column) = .null ↔ present rows column = [] := by
  constructor
  · intro hnull
    by_contra hne
    have hmem : best beats (present rows column) ∈ present rows column := best_mem hne
    exact (mem_present.mp hmem).2 hnull
  · intro hempty
    rw [hempty]
    rfl

end Aggregate

namespace Select

variable {query : Select} {schema : TableSchema} {column label : Text} {descending : Bool} {rows : List Row}

/-- MIN, or MAX in descending order, of a column over the rows that a query lets pass. -/
def extremeOf (query : Select) (column label : Text) (descending : Bool) : Select :=
  { query with
    items := [.aggregate (if descending then .max else .min) column label], distinct := false, groupBy := [],
    having := none, orderBy := [], limit := none, offset := 0 }

/-- A column of the first one of the rows that a query lets pass, ordered by this column, without the rows
that hold a null there. -/
def firstOf (query : Select) (column : Text) (descending : Bool) : Select :=
  let present : Condition := .isNull (.column column) true
  { query with
    items := [.column column column], distinct := false,
    condition := some (match query.condition with
      | some condition => .and (.group condition) present
      | none => present),
    groupBy := [], having := none, orderBy := [⟨column, descending⟩], limit := some 1, offset := 0 }

theorem apply_extreme (rows : List Row) :
    Aggregate.apply (if descending then .max else .min) column rows =
      Aggregate.best (Scalar.comesFirst descending) (Aggregate.present rows column) := by
  cases descending <;> rfl

theorem passing_firstOf : (query.firstOf column descending).passing rows =
    (query.passing rows).filter fun row => !(row.resolve column).isNull := by
  rw [passing, passing, List.filter_filter]
  refine List.filter_congr fun row _ => ?_
  rw [firstOf]
  cases query.condition <;> simp [Condition.holds, Operand.value, Bool.and_comm]

def oneColumn (column : Text) (row : Row) : Projected :=
  ⟨.ofList [(column, row.resolve column)], row⟩

theorem sortValue_oneColumn (column : Text) (row : Row) :
    sortValue (oneColumn column row) column = row.resolve column := by
  have hget : (oneColumn column row).output.get? column = some (row.resolve column) := by
    refine OrderedMap.get?_ofList (List.mem_singleton_self _) fun other hother => ?_
    cases List.mem_singleton.mp hother
    rfl
  rw [sortValue, hget]

/-- Rows of one column are sorted as its values. -/
theorem map_output_sortRows (column : Text) (descending : Bool) (rows : List Row) :
    (sortRows [⟨column, descending⟩] (rows.map (oneColumn column))).map (·.output) =
      (Sorting.sort (Scalar.comesFirst descending) (rows.map (·.resolve column))).map
        fun value => .ofList [(column, value)] := by
  have hbefore : (fun a b =>
        decide (compareRows (oneColumn column a) (oneColumn column b) [⟨column, descending⟩] = .lt)) =
      fun a b => Scalar.comesFirst descending (a.resolve column) (b.resolve column) := by
    funext a b
    rw [Bool.eq_iff_iff, decide_eq_true_eq, compareRows_singleton_eq_lt_iff, PutsFirst, sortValue_oneColumn,
      sortValue_oneColumn]
  rw [sortRows, Sorting.sort_map, Sorting.sort_map, hbefore, List.map_map, List.map_map]
  rfl

theorem resultOf_extremeOf : (query.extremeOf column label descending).resultOf schema rows =
    ⟨[label], [.ofList [(label, Aggregate.best (Scalar.comesFirst descending)
      (Aggregate.present (query.passing rows) column))]]⟩ := by
  have hkeeps : (query.extremeOf column label descending).KeepsProjected :=
    ⟨List.nodup_singleton label, rfl, rfl, rfl, rfl, rfl⟩
  rw [resultOf_keepsProjected hkeeps rfl, projectAll_whole rfl rfl, ← apply_extreme]
  rfl

theorem resultOf_firstOf : (query.firstOf column descending).resultOf schema rows =
    ⟨[column], ((Sorting.sort (Scalar.comesFirst descending)
      (Aggregate.present (query.passing rows) column)).head?.toList.map fun value => .ofList [(column, value)])⟩ := by
  have hfound : (query.firstOf column descending).found schema rows =
      ((query.firstOf column descending).passing rows).map (oneColumn column) := List.filter_true _
  have hpresent : ((query.firstOf column descending).passing rows).map (·.resolve column) =
      Aggregate.present (query.passing rows) column := by
    rw [passing_firstOf, Aggregate.present, List.filter_map]
    rfl
  have houtput := map_output_sortRows column descending ((query.firstOf column descending).passing rows)
  rw [← hfound, hpresent] at houtput
  rw [resultOf_eq, ← List.take_one, List.map_take, ← houtput, ← List.map_take]
  rfl

end Select

namespace Database

variable {database : Database} {query : Select} {schema : TableSchema} {column label : Text} {descending : Bool}

/-- MIN and MAX of a column have the value in the first row in the order of this column, and are null just
where there is no such row. -/
theorem select_extreme (hschema : database.schemas.get? query.table = some schema)
    (hname : query.checkName schema column = .ok ())
    (hcompares : ∀ a ∈ Aggregate.present (database.passing query) column,
      ∀ b ∈ Aggregate.present (database.passing query) column, a.Comparable b) :
    ∃ value, database.select (query.extremeOf column label descending) =
        .ok ⟨[label], [.ofList [(label, value)]]⟩ ∧
      database.select (query.firstOf column descending) =
        .ok ⟨[column], if value = .null then [] else [.ofList [(column, value)]]⟩ ∧
      (value = .null ↔ ∀ row ∈ database.passing query, row.resolve column = .null) := by
  have hextreme : (query.extremeOf column label descending).checkItem schema
      (.aggregate (if descending then .max else .min) column label) = .ok () := by
    rw [Select.checkItem]
    split
    · rfl
    · exact hname
  refine ⟨Aggregate.best (Scalar.comesFirst descending) (Aggregate.present (database.passing query) column),
    select_eq_ok.mpr ⟨schema, hschema, Check.bind_eq_ok.mpr ⟨(), hextreme, rfl⟩, Select.resultOf_extremeOf⟩,
    select_eq_ok.mpr ⟨schema, hschema, Check.bind_eq_ok.mpr ⟨(), hname, rfl⟩, ?_⟩,
    Aggregate.best_present_eq_null_iff.trans Aggregate.present_eq_nil_iff⟩
  change (query.firstOf column descending).resultOf schema (database.tableRows query.table) = _
  rw [Select.resultOf_firstOf]
  change QueryResult.mk [column] ((Sorting.sort (Scalar.comesFirst descending)
    (Aggregate.present (database.passing query) column)).head?.toList.map _) = _
  split
  · next hnull =>
    rw [Aggregate.best_present_eq_null_iff.mp hnull]
    rfl
  · next hvalue =>
    have hne : Aggregate.present (database.passing query) column ≠ [] :=
      mt Aggregate.best_present_eq_null_iff.mpr hvalue
    rw [Aggregate.head?_sort (Scalar.strictWeakOn_comesFirst descending hcompares) hne]
    rfl

def earlyTeams : Select :=
  ⟨[], "player", none, false, some (.compare (.column "team") .lessEqual (.literal (.int 2))), [], none, [], none, 0⟩

example : parse "SELECT MAX(id) AS last FROM player WHERE team <= 2" =
    .ok (.select (earlyTeams.extremeOf "id" "last" true)) := by
  decide +kernel

example : parse "SELECT id FROM player WHERE (team <= 2) AND id IS NOT NULL ORDER BY id DESC LIMIT 1" =
    .ok (.select (earlyTeams.firstOf "id" true)) := by
  decide +kernel

theorem select_extreme_players : ∃ schema, league.schemas.get? earlyTeams.table = some schema ∧
    earlyTeams.checkName schema "id" = .ok () ∧
    (∀ a ∈ Aggregate.present (league.passing earlyTeams) "id",
      ∀ b ∈ Aggregate.present (league.passing earlyTeams) "id", a.Comparable b) ∧
    ∃ value, league.select (earlyTeams.extremeOf "id" "last" true) =
        .ok ⟨["last"], [.ofList [("last", value)]]⟩ ∧
      league.select (earlyTeams.firstOf "id" true) =
        .ok ⟨["id"], if value = .null then [] else [.ofList [("id", value)]]⟩ ∧
      (value = .null ↔ ∀ row ∈ league.passing earlyTeams, row.resolve "id" = .null) := by
  have hcompares : ∀ a ∈ Aggregate.present (league.passing earlyTeams) "id",
      ∀ b ∈ Aggregate.present (league.passing earlyTeams) "id", a.Comparable b := by decide +kernel
  have hschema : league.schemas.get? earlyTeams.table = some _ := rfl
  exact ⟨_, hschema, rfl, hcompares, select_extreme hschema rfl hcompares⟩

end Database

end SnapshotSql
