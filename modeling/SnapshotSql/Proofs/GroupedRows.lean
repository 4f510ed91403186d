import SnapshotSql.Proofs.GroupedLists
import SnapshotSql.Proofs.SelectedColumns
import SnapshotSql.Proofs.Transitions
import Mathlib.Algebra.BigOperators.Group.List.Basic
import Mathlib.Algebra.Order.Ring.Int

/-! # Grouping is a partition

A query with GROUP BY shows one row for each key among the rows that pass its condition, in the order in
which the keys first come. Aggregates see exactly the rows of that key, in their order, and columns the
first of them. Since no row is lost and none is in two groups, the counts of the groups add up to the number
of rows and the sums of integers to the sum over all of them.
-/
namespace SnapshotSql

def SelectItem.label? : SelectItem → Option Text
  | .star _ => none
  | .column _ label => some label
  | .aggregate _ _ label => some label

namespace Aggregate

variable {rows : List Row} {column : Text}

/-- A column that holds only integers and nulls. -/
def Whole (rows : List Row) (column : Text) : Prop :=
  ∀ row ∈ rows, row.resolve column = .null ∨ ∃ amount, row.resolve column = .int amount

def amount? : Scalar → Option Int
  | .int amount => some amount
  | _ => none

def amounts (rows : List Row) (column : Text) : List Int :=
  rows.filterMap fun row => amount? (row.resolve column)

theorem present_of_whole (h : Whole rows column) : present rows column = (amounts rows column).map .int := by
  induction rows with
  | nil => rfl
  | cons row rows ih =>
    have hrest := ih fun other hother => h other (List.mem_cons_of_mem row hother)
    unfold present amounts at hrest ⊢
    rw [List.map_cons, List.filter_cons, List.filterMap_cons, hrest]
    rcases h row List.mem_cons_self with hnull | ⟨amount, hamount⟩
    · simp [hnull, Scalar.isNull, amount?]
    · simp [hamount, Scalar.isNull, amount?]

theorem total_amounts (list : List Int) : total (list.map .int) = .int list.sum := by
  induction list using List.reverseRecOn with
  | nil => rfl
  | append_singleton list amount ih =>
    unfold total at ih ⊢
    rw [List.map_append, List.foldl_append, ih, List.sum_append, List.sum_singleton]
    rfl

theorem apply_sum (h : Whole rows column) : apply .sum column rows = .int (amounts rows column).sum := by
  rw [apply, present_of_whole h, total_amounts]
  rfl

/-- The amounts of the groups add up to those of all rows. -/
theorem sum_amounts_members (keyOf : Row → Text) (rows : List Row) (column : Text) :
    ((Grouping.keys keyOf rows).map fun key => (amounts (Grouping.members keyOf rows key) column).sum).sum =
      (amounts rows column).sum := by
  have hperm := (Grouping.perm_members keyOf rows).filterMap fun row =>
    amount? (row.resolve column)
  rw [List.filterMap_flatMap] at hperm
  rw [amounts, ← hperm.sum_eq, List.flatMap_def, List.sum_flatten, List.map_map]
  rfl

theorem sum_length_members (keyOf : Row → Text) (rows : List Row) :
    ((Grouping.keys keyOf rows).map fun key => (Grouping.members keyOf rows key).length).sum = rows.length := by
  rw [← (Grouping.perm_members keyOf rows).length_eq, List.length_flatMap]

end Aggregate

namespace Select

variable {query : Select} {schema : TableSchema} {members : List Row}

def labels (query : Select) : List Text :=
  query.items.filterMap SelectItem.label?

def passing (query : Select) (rows : List Row) : List Row :=
  rows.filter fun row => query.condition.all (·.holds row)

/-- The rows that a query finds, before they are put in order and cut to its limit. -/
def found (query : Select) (schema : TableSchema) (rows : List Row) : List Projected :=
  let projected := (query.projectAll schema (query.passing rows)).filter fun row =>
    query.having.all (·.holds row.output)
  if query.distinct then distinctBy (query.resultColumns schema) [] projected else projected

theorem resultOf_eq (query : Select) (schema : TableSchema) (rows : List Row) : query.resultOf schema rows =
    ⟨query.resultColumns schema,
      (limitRows query.limit query.offset (sortRows query.orderBy (query.found schema rows))).map (·.output)⟩ :=
  rfl

def groupKey (query : Select) (row : Row) : Text :=
  Key.ofValues (query.groupBy.map row.resolve)

def group (query : Select) (rows : List Row) (key : Text) : List Row :=
  Grouping.members query.groupKey rows key

def ungrouped (query : Select) : Select :=
  { query with groupBy := [] }

/-- Distinct labels, and nothing that changes the rows once they are projected. -/
structure KeepsProjected (query : Select) : Prop where
  labels : query.labels.Nodup
  having : query.having = none
  distinct : query.distinct = false
  orderBy : query.orderBy = []
  limit : query.limit = none
  offset : query.offset = 0

/-- A row that shows a group: its aggregates, and its columns as they are in its first row. -/
structure Shows (query : Select) (members : List Row) (shown : Row) : Prop where
  names : shown.names = query.labels
  columns : ∀ name label, .column name label ∈ query.items →
    shown.value label = (members.headD .empty).resolve name
  aggregates : ∀ function argument label, .aggregate function argument label ∈ query.items →
    shown.value label = Aggregate.apply function argument members

/-- The keys of rows, each once and in the order in which the rows first have them. -/
structure Keys (query : Select) (rows : List Row) (keys : List Text) : Prop where
  nodup : keys.Nodup
  mem : ∀ key, key ∈ keys ↔ ∃ row ∈ rows, query.groupKey row = key
  ordered : keys.Pairwise fun a b => (rows.map query.groupKey).idxOf a < (rows.map query.groupKey).idxOf b
  perm : (keys.flatMap (query.group rows)).Perm rows

theorem keys_groupKey (query : Select) (rows : List Row) :
    query.Keys rows (Grouping.keys query.groupKey rows) :=
  ⟨Grouping.nodup_keys, fun _ => Grouping.mem_keys, Grouping.pairwise_keys, Grouping.perm_members _ _⟩

/-! ## Projected groups -/

theorem map_fst_cells (query : Select) (schema : TableSchema) (source : Row) (members : List Row) :
    (query.items.flatMap (cells schema source (some members))).map (·.1) = query.labels := by
  rw [List.map_flatMap, labels, List.filterMap_eq_flatMap_toList]
  congr 1
  funext item
  cases item <;> rfl

theorem value_project {source : Row} {label : Text} {value : Scalar} (hlabels : query.labels.Nodup)
    (h : (label, value) ∈ query.items.flatMap (cells schema source (some members))) :
    (query.project schema source (some members)).value label = value := by
  have hnodup : ((query.items.flatMap (cells schema source (some members))).map (·.1)).Nodup := by
    rwa [map_fst_cells]
  have hget := (OrderedMap.mem_entries_iff ⟨_, hnodup⟩ label value).mp h
  rw [project_eq, Row.value, OrderedMap.ofList_entries ⟨_, hnodup⟩, hget]
  rfl

theorem shows_project (schema : TableSchema) (hlabels : query.labels.Nodup) (members : List Row) :
    query.Shows members (query.project schema (members.headD .empty) (some members)) where
  names := by
    rw [project_eq, OrderedMap.names_ofList, map_fst_cells, eraseDups_of_nodup hlabels]
  columns name label hitem :=
    value_project hlabels (List.mem_flatMap.mpr ⟨_, hitem, List.mem_singleton_self _⟩)
  aggregates function argument label hitem :=
    value_project hlabels (List.mem_flatMap.mpr ⟨_, hitem, List.mem_singleton_self _⟩)

/-- Each group is projected from its first row. -/
theorem projectAll_groups (hgroupBy : query.groupBy ≠ []) (rows : List Row) :
    query.projectAll schema rows = (Grouping.keys query.groupKey rows).map fun key =>
      ⟨query.project schema ((query.group rows key).headD .empty) (some (query.group rows key)),
        (query.group rows key).headD .empty⟩ := by
  have hgroups : query.projectAll schema rows = (Grouping.keys query.groupKey rows).filterMap fun key =>
      (query.group rows key).head?.map fun first =>
        ⟨query.project schema first (some (query.group rows key)), first⟩ := by
    rw [projectAll, if_pos (by simpa using hgroupBy)]
    exact List.filterMap_map
  rw [hgroups, ← List.filterMap_eq_map]
  refine List.filterMap_congr fun key hkey => ?_
  obtain ⟨first, hfirst⟩ : ∃ first, (query.group rows key).head? = some first :=
    Grouping.exists_head?_members hkey
  simp only [Function.comp_apply, List.headD_eq_head?_getD, hfirst, Option.map_some, Option.getD_some]

/-- Without GROUP BY, an aggregate makes one row of all rows. -/
theorem projectAll_whole (hgroupBy : query.groupBy = []) (haggregates : query.hasAggregates = true)
    (rows : List Row) : query.projectAll schema rows =
      [⟨query.project schema (rows.headD .empty) (some rows), rows.headD .empty⟩] := by
  simp [projectAll, hgroupBy, haggregates]

theorem resultOf_keepsProjected (h : query.KeepsProjected) (hgrouped : query.isGrouped = true)
    (rows : List Row) : query.resultOf schema rows =
      ⟨query.labels, (query.projectAll schema (query.passing rows)).map (·.output)⟩ := by
  have hcolumns : query.resultColumns schema = query.labels := by
    have hnames : (query.project schema .empty (some [])).names = query.resultColumns schema :=
      names_project .empty (by rw [hgrouped]; rfl)
    exact hnames.symm.trans (shows_project schema h.labels []).names
  simp [resultOf_eq, found, hcolumns, h.having, h.distinct, h.orderBy, h.limit, h.offset, sortRows_nil, limitRows]

end Select

namespace Database

variable {database : Database} {query : Select} {schema : TableSchema}

def passing (database : Database) (query : Select) : List Row :=
  query.passing (database.tableRows query.table)

theorem select_keepsProjected (hschema : database.schemas.get? query.table = some schema)
    (hitems : query.items.forM (query.checkItem schema) = .ok ()) (h : query.KeepsProjected)
    (hgrouped : query.isGrouped = true) : database.select query =
      .ok ⟨query.labels, (query.projectAll schema (database.passing query)).map (·.output)⟩ := by
  rw [passing, ← Select.resultOf_keepsProjected h hgrouped]
  exact select_eq_ok.mpr ⟨schema, hschema, hitems, rfl⟩

theorem select_ungrouped (hschema : database.schemas.get? query.table = some schema)
    (hitems : query.items.forM (query.checkItem schema) = .ok ()) (h : query.KeepsProjected)
    (haggregates : query.hasAggregates = true) : database.select query.ungrouped = .ok ⟨query.labels,
      [query.project schema ((database.passing query).headD .empty) (some (database.passing query))]⟩ := by
  have hkeeps : query.ungrouped.KeepsProjected := ⟨h.labels, h.having, h.distinct, h.orderBy, h.limit, h.offset⟩
  have hgrouped : query.ungrouped.isGrouped = true := haggregates
  have hselect : database.select query.ungrouped =
      .ok ⟨query.labels, (query.ungrouped.projectAll schema (database.passing query)).map (·.output)⟩ :=
    select_keepsProjected hschema hitems hkeeps hgrouped
  rw [Select.projectAll_whole (rfl : query.ungrouped.groupBy = []) haggregates] at hselect
  exact hselect

/-- Rows that show the groups of the rows that pass the condition of a query. -/
structure Partition (database : Database) (query : Select) (keys : List Text) (shown : List Row) : Prop where
  keyed : query.Keys (database.passing query) keys
  shows : List.Forall₂ (fun key row => query.Shows (query.group (database.passing query) key) row) keys shown
  counts : ∀ label, .aggregate .count "*" label ∈ query.items → ∃ counts : List Nat,
    shown.map (·.value label) = counts.map (fun count => .int count) ∧
      counts.sum = (database.passing query).length
  sums : ∀ column label, .aggregate .sum column label ∈ query.items →
    Aggregate.Whole (database.passing query) column → ∃ (sums : List Int) (whole : Row),
      shown.map (·.value label) = sums.map .int ∧
      database.select query.ungrouped = .ok ⟨query.labels, [whole]⟩ ∧ whole.value label = .int sums.sum

/-- A query with GROUP BY answers a partition of the rows that pass its condition. -/
theorem groups_partition (hschema : database.schemas.get? query.table = some schema)
    (hitems : query.items.forM (query.checkItem schema) = .ok ()) (hgroupBy : query.groupBy ≠ [])
    (hkeeps : query.KeepsProjected) :
    ∃ keys shown, database.select query = .ok ⟨query.labels, shown⟩ ∧ database.Partition query keys shown := by
  have hgrouped : query.isGrouped = true := by simp [Select.isGrouped, hgroupBy]
  have hselect := select_keepsProjected hschema hitems hkeeps hgrouped
  rw [Select.projectAll_groups hgroupBy, List.map_map] at hselect
  have hshows := fun members => Select.shows_project schema hkeeps.labels members
  refine ⟨_, _, hselect, query.keys_groupKey _, ?_, fun label hitem => ?_, fun column label hitem hwhole => ?_⟩
  · rw [List.forall₂_map_right_iff, List.forall₂_same]
    exact fun key _ => hshows _
  · refine ⟨_, ?_, Aggregate.sum_length_members query.groupKey _⟩
    rw [List.map_map, List.map_map]
    exact List.map_congr_left fun key _ => (hshows _).aggregates _ _ _ hitem
  · refine ⟨(Grouping.keys query.groupKey (database.passing query)).map fun key =>
      (Aggregate.amounts (query.group (database.passing query) key) column).sum, _, ?_,
      select_ungrouped hschema hitems hkeeps (List.any_eq_true.mpr ⟨_, hitem, rfl⟩), ?_⟩
    · rw [List.map_map, List.map_map]
      refine List.map_congr_left fun key _ => ((hshows _).aggregates _ _ _ hitem).trans (Aggregate.apply_sum ?_)
      exact fun row hrow => hwhole row (List.mem_of_mem_filter hrow)
    · rw [(hshows (database.passing query)).aggregates _ _ _ hitem, Aggregate.apply_sum hwhole]
      exact congrArg Scalar.int (Aggregate.sum_amounts_members query.groupKey _ _).symm

def squadQuery : Select :=
  ⟨[.column "team" "team", .aggregate .count "*" "players", .aggregate .sum "id" "ids"], "player", none, false,
    none, ["team"], none, [], none, 0⟩

example : parse "SELECT team, COUNT(*) AS players, SUM(id) AS ids FROM player GROUP BY team" =
    .ok (.select squadQuery) := by
  decide +kernel

theorem groups_partition_squads : ∃ schema, league.schemas.get? squadQuery.table = some schema ∧
    squadQuery.items.forM (squadQuery.checkItem schema) = .ok () ∧ squadQuery.groupBy ≠ [] ∧
    squadQuery.KeepsProjected ∧ ∃ keys shown, league.select squadQuery = .ok ⟨squadQuery.labels, shown⟩ ∧
      league.Partition squadQuery keys shown := by
  have hkeeps : squadQuery.KeepsProjected := ⟨by decide +kernel, rfl, rfl, rfl, rfl, rfl⟩
  refine ⟨_, rfl, rfl, by decide, hkeeps, ?_⟩
  exact groups_partition (rfl : league.schemas.get? squadQuery.table = some _) rfl (by decide) hkeeps

end Database

end SnapshotSql
