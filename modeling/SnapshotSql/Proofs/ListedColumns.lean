import SnapshotSql.Proofs.EscapingFailures
import SnapshotSql.Proofs.SingleInserts
import SnapshotSql.Proofs.PaddedRows
import Mathlib.Data.List.Perm.Basic

/-! # Columns in the order of a statement

A statement lists columns in an order of its own: an INSERT in front of its tuples, an UPDATE with what it
assigns. Either way a map of names to values comes out, and the typed row is built from the map in the order of
the schema. Every assigned expression reads the row before. So the order in which different columns are listed
is not seen in what is stored or answered.
-/
namespace SnapshotSql

/-! ## Lists in another order -/

/-- The elements of a list at the given positions, in this order, and behind them what stands behind as many
positions. -/
def rearranged {α : Type} (order : List Nat) (list : List α) : List α :=
  order.filterMap (list[·]?) ++ list.drop order.length

section
variable {α β : Type} {order : List Nat}

theorem filterMap_range_getElem? (list : List α) (count : Nat) :
    (List.range count).filterMap (list[·]?) = list.take count := by
  induction count with
  | zero => rfl
  | succ count ih =>
    rw [List.range_succ, List.filterMap_append, ih, List.take_add_one]
    cases hitem : list[count]? <;> simp [hitem]

theorem perm_rearranged (h : order.Perm (List.range order.length)) (list : List α) :
    (rearranged order list).Perm list := by
  have hfront : (order.filterMap (list[·]?)).Perm (list.take order.length) := by
    rw [← filterMap_range_getElem?]
    exact h.filterMap _
  calc (rearranged order list).Perm (list.take order.length ++ list.drop order.length) := hfront.append_right _
    _ = list := List.take_append_drop ..

theorem rearranged_map (f : α → β) (list : List α) :
    rearranged order (list.map f) = (rearranged order list).map f := by
  have hfront : order.filterMap ((list.map f)[·]?) = (order.filterMap (list[·]?)).map f := by
    rw [List.map_filterMap]
    simp only [List.getElem?_map]
  rw [rearranged, rearranged, hfront, List.map_append, List.map_drop]

/-- Two lists are rearranged alike. -/
theorem zip_rearranged {list : List α} {other : List β} (h : list.length = other.length) :
    (rearranged order list).zip (rearranged order other) = rearranged order (list.zip other) := by
  have hfirst : list = (list.zip other).map Prod.fst := (List.map_fst_zip h.le).symm
  have hsecond : other = (list.zip other).map Prod.snd := (List.map_snd_zip h.ge).symm
  calc (rearranged order list).zip (rearranged order other)
      = ((rearranged order (list.zip other)).map Prod.fst).zip ((rearranged order (list.zip other)).map Prod.snd) := by
        rw [← rearranged_map, ← rearranged_map, ← hfirst, ← hsecond]
    _ = rearranged order (list.zip other) := (List.zip_of_prod rfl rfl).symm

end

/-! ## Maps of entries in another order -/

namespace OrderedMap

variable {α : Type} {entries others : List (Text × α)}

theorem lookup_perm (h : entries.Perm others) (hnodup : (entries.map (·.1)).Nodup) (name : Text) :
    entries.lookup name = others.lookup name := by
  induction h with
  | nil => rfl
  | cons entry _ ih =>
    rw [lookup_cons_eq, lookup_cons_eq, ih (List.nodup_cons.mp hnodup).2]
  | swap first second rest =>
    have hother : second.1 ≠ first.1 := by
      intro heq
      exact (List.nodup_cons.mp hnodup).1 (List.mem_cons.mpr (.inl heq))
    simp only [lookup_cons_eq]
    by_cases hname : name = second.1
    · simp [hname, hother]
    · simp [hname]
  | trans hfirst _ ihFirst ihSecond =>
    rw [ihFirst hnodup, ihSecond ((hfirst.map _).nodup_iff.mp hnodup)]

/-- Entries of different names are found alike in whatever order they are inserted. -/
theorem get?_foldl_insert_perm (h : entries.Perm others) (hnodup : (entries.map (·.1)).Nodup)
    (map : OrderedMap α) (name : Text) :
    (entries.foldl (fun map entry => map.insert entry.1 entry.2) map).get? name =
      (others.foldl (fun map entry => map.insert entry.1 entry.2) map).get? name := by
  have hnodup' : (others.map (·.1)).Nodup := (h.map _).nodup_iff.mp hnodup
  rw [get?_foldl_insert _ _ _ hnodup, get?_foldl_insert _ _ _ hnodup', lookup_perm h hnodup]

end OrderedMap

theorem Row.same_ofList {entries others : List (Text × Scalar)} (h : entries.Perm others)
    (hnodup : (entries.map (·.1)).Nodup) : Row.Same (.ofList entries) (.ofList others) :=
  OrderedMap.get?_foldl_insert_perm h hnodup .empty

/-- A cast row lists its columns in the order of the schema, whatever the order of its source. -/
theorem castRow_same {row other : Row} (h : row.Same other) (columns : List Column) :
    castRow columns row = castRow columns other := by
  unfold castRow
  generalize (OrderedMap.empty : Row) = typed
  induction columns generalizing typed with
  | nil => rfl
  | cons column columns ih =>
    simp only [castColumns, h column.name, ih]

namespace Database

variable {database : Database} {schema : TableSchema} {table : Text} {columns : List Text}
  {tuples : List (List Scalar)} {order : List Nat} {outcome : Outcome}

/-! ## The columns of an INSERT -/

theorem checkInsertColumns_perm {others : List Text} (h : others.Perm columns) :
    checkInsertColumns schema (some others) = .ok () ↔ checkInsertColumns schema (some columns) = .ok () := by
  simp only [checkInsertColumns_eq_ok, ColumnsListed, Option.some.injEq, forall_eq', h.nodup_iff, h.mem_iff]

/-- A tuple that is rearranged like the columns has the same typed row, or like them none. -/
theorem typedRows_rearranged (horder : order.Perm (List.range order.length)) (hnodup : columns.Nodup)
    {rows : List Row} {number : Nat} :
    typedRows schema (some (rearranged order columns)) number (tuples.map (rearranged order)) = .ok rows ↔
      typedRows schema (some columns) number tuples = .ok rows := by
  induction tuples generalizing number rows with
  | nil => exact Iff.rfl
  | cons values tuples ih =>
    simp only [List.map_cons, typedRows_cons_eq_ok, insertColumns, ih,
      (perm_rearranged horder columns).length_eq, (perm_rearranged horder values).length_eq]
    apply exists₂_congr
    intro row rest
    apply and_congr_right
    intro hlength
    have hnames : ((columns.zip values).map (·.1)).Nodup := by
      rw [List.map_fst_zip hlength.le]
      exact hnodup
    have hperm := (perm_rearranged horder (columns.zip values)).symm
    rw [zip_rearranged hlength, ← castRow_same (Row.same_ofList hperm hnames)]

theorem insert_rearranged (horder : order.Perm (List.range order.length)) :
    database.insert ⟨table, some (rearranged order columns), tuples.map (rearranged order)⟩ = .ok outcome ↔
      database.insert ⟨table, some columns, tuples⟩ = .ok outcome := by
  simp only [insert, Check.bind_eq_ok, Check.orFail_eq_ok, checkInsertColumns_perm (perm_rearranged horder columns)]
  apply exists_congr
  intro schema
  apply and_congr_right
  intro hschema
  apply exists_congr
  intro _
  apply and_congr_right
  intro hcolumns
  have hnodup : columns.Nodup := (checkInsertColumns_eq_ok.mp hcolumns columns rfl).2
  simp only [typedRows_rearranged horder hnodup]

/-! ## The assignments of an UPDATE -/

section
variable {assignments others : List Assignment} {condition : Option Condition}

/-- Every expression reads the row before, so different columns get their values in any order. -/
theorem assign_perm (h : others.Perm assignments) (hnodup : (assignments.map (·.column)).Nodup) (row : Row) :
    assign schema others row = assign schema assignments row := by
  let entry (assignment : Assignment) : Text × Scalar := (assignment.column, assignment.expression.value row)
  have hentries : (others.map entry).Perm (assignments.map entry) := h.map entry
  have hnames : ((others.map entry).map (·.1)).Nodup := by
    rw [List.map_map]
    exact (h.map _).nodup_iff.mpr hnodup
  apply castRow_same
  intro name
  have hfound := OrderedMap.get?_foldl_insert_perm hentries hnames row name
  rw [List.foldl_map, List.foldl_map] at hfound
  exact hfound

theorem changesFrom_perm (h : others.Perm assignments) (hnodup : (assignments.map (·.column)).Nodup)
    (position : Nat) (rows : List Row) :
    changesFrom schema ⟨table, others, condition⟩ position rows =
      changesFrom schema ⟨table, assignments, condition⟩ position rows := by
  induction rows generalizing position with
  | nil => rfl
  | cons row rows ih => simp only [changesFrom, assign_perm h hnodup, ih]

theorem update_perm {limit : Int} (h : others.Perm assignments) (hnodup : (assignments.map (·.column)).Nodup) :
    database.update limit ⟨table, others, condition⟩ = .ok outcome ↔
      database.update limit ⟨table, assignments, condition⟩ = .ok outcome := by
  have hcolumns (schema : TableSchema) :
      (others.forM fun assignment => schema.requireColumn assignment.column) = .ok () ↔
        (assignments.forM fun assignment => schema.requireColumn assignment.column) = .ok () := by
    simp only [Check.forM_eq_ok, h.mem_iff]
  simp only [update, Check.bind_eq_ok, Check.orFail_eq_ok, hcolumns, changesFrom_perm h hnodup]

end

/-- An INSERT lists its columns, and the values of its tuples with them, in whatever order, and an UPDATE
what it assigns to different columns: it succeeds alike, with one answer and one next snapshot. -/
theorem order_of_listed_columns (database : Database) (limit : Int) :
    (∀ (table : Text) (columns : List Text) (tuples : List (List Scalar)) (order : List Nat),
      order.Perm (List.range columns.length) → ∀ outcome,
        database.run limit (.insert ⟨table, some (rearranged order columns), tuples.map (rearranged order)⟩) =
            .ok outcome ↔
          database.run limit (.insert ⟨table, some columns, tuples⟩) = .ok outcome) ∧
    (∀ (table : Text) (condition : Option Condition) (assignments others : List Assignment),
      others.Perm assignments → (assignments.map (·.column)).Nodup → ∀ outcome,
        database.run limit (.update ⟨table, others, condition⟩) = .ok outcome ↔
          database.run limit (.update ⟨table, assignments, condition⟩) = .ok outcome) := by
  constructor
  · intro table columns tuples order horder outcome
    have hlength : order.length = columns.length := by rw [horder.length_eq, List.length_range]
    rw [← hlength] at horder
    exact insert_rearranged horder
  · intro table condition assignments others hperm hnodup outcome
    exact update_perm hperm hnodup

def pointSchema : TableSchema :=
  let plain (name : Text) : Column := ⟨name, .int, false, false, false⟩
  ⟨"point", [⟨"id", .int, false, false, true⟩, plain "x", plain "y"], ["id"], [], [], .synthesized, false⟩

def points : Database :=
  ⟨"point", .ofList [("point", pointSchema)],
    .ofList [("point", [.ofList [("id", .int 1), ("x", .int 1), ("y", .int 2)]])]⟩

def exchangedSides : List Assignment :=
  [⟨"x", .operand (.column "y")⟩, ⟨"y", .operand (.column "x")⟩]

set_option maxRecDepth 20000 in
theorem order_of_listed_columns_points :
    [1, 0].Perm (List.range 2) ∧ exchangedSides.reverse.Perm exchangedSides ∧
      (exchangedSides.map (·.column)).Nodup ∧
      (∃ outcome, points.run 64 (.insert ⟨"point", some ["x", "y"], [[.int 3, .int 4]]⟩) = .ok outcome ∧
        points.run 64 (.insert ⟨"point", some ["y", "x"], [[.int 4, .int 3]]⟩) = .ok outcome) ∧
      ∃ outcome, points.run 64 (.update ⟨"point", exchangedSides, none⟩) = .ok outcome ∧
        points.run 64 (.update ⟨"point", exchangedSides.reverse, none⟩) = .ok outcome ∧
        ((outcome.snapshot points).tableRows "point").map (·.values ["x", "y"]) = [[.int 2, .int 1]] := by
  obtain ⟨hinserts, hupdates⟩ := order_of_listed_columns points 64
  have horder : [1, 0].Perm (List.range 2) := by decide
  have hperm : exchangedSides.reverse.Perm exchangedSides := List.reverse_perm _
  have hnodup : (exchangedSides.map (·.column)).Nodup := by decide
  obtain ⟨inserted, hinserted⟩ :
      ∃ outcome, points.run 64 (.insert ⟨"point", some ["x", "y"], [[.int 3, .int 4]]⟩) = .ok outcome :=
    Check.exists_of_isOk (by decide +kernel)
  obtain ⟨updated, hupdated⟩ : ∃ outcome, points.run 64 (.update ⟨"point", exchangedSides, none⟩) = .ok outcome :=
    Check.exists_of_isOk (by decide +kernel)
  have hrows : (points.run 64 (.update ⟨"point", exchangedSides, none⟩)).toOption.map (fun outcome =>
      ((outcome.snapshot points).tableRows "point").map (·.values ["x", "y"])) = some [[.int 2, .int 1]] := by
    decide +kernel
  simp only [hupdated, Except.toOption, Option.map_some, Option.some.injEq] at hrows
  have hinserted' := (hinserts "point" ["x", "y"] [[.int 3, .int 4]] [1, 0] horder inserted).mpr hinserted
  have hupdated' := (hupdates "point" none exchangedSides exchangedSides.reverse hperm hnodup updated).mpr hupdated
  exact ⟨horder, hperm, hnodup, ⟨inserted, hinserted, hinserted'⟩, updated, hupdated, hupdated', hrows⟩

end Database

end SnapshotSql
