import SnapshotSql.Proofs.DeleteTraces
import SnapshotSql.Proofs.SortedLists
import Mathlib.Data.List.Induction

/-! # The columns of a result and of its rows

The columns of a result are told from the items of the SELECT and the schema alone, its rows are built
entry by entry from the same items. Both drop repeated labels in the same way: every row of a result lists
the columns of the result, in their order. So a table that stores such rows is selected as a whole by a
star, which builds each row anew from its columns and finds it unchanged.
-/
namespace SnapshotSql

theorem eraseDups_of_nodup {names : List Text} (h : names.Nodup) : names.eraseDups = names := by
  induction names with
  | nil => rfl
  | cons name names ih =>
    obtain ⟨hnew, hrest⟩ := List.nodup_cons.mp h
    have hother : ∀ other ∈ names, (!other == name) = true := by
      intro other hother
      have hne : other ≠ name := ne_of_mem_of_not_mem hother hnew
      simpa using hne
    rw [List.eraseDups_cons, List.filter_eq_self.mpr hother, ih hrest]

namespace OrderedMap

variable {α : Type}

/-- A map of a list of entries has each name once, at its first place. -/
theorem names_ofList (entries : List (Text × α)) :
    (ofList entries).names = (entries.map (·.1)).eraseDups := by
  induction entries using List.reverseRecOn with
  | nil => rfl
  | append_singleton entries entry ih =>
    have hlast : ofList (entries ++ [entry]) = (ofList entries).insert entry.1 entry.2 := by
      simp [ofList]
    rw [hlast, names_insert, ih, List.map_append, List.eraseDups_append]
    by_cases hmem : entry.1 ∈ entries.map (·.1)
    · simp [List.removeAll, List.mem_eraseDups, hmem]
    · simp [List.removeAll, List.mem_eraseDups, hmem, List.eraseDups_cons]

/-- A name looks up the value of its entries, if they have only one. -/
theorem get?_ofList {entries : List (Text × α)} {name : Text} {value : α} (hmem : (name, value) ∈ entries)
    (hone : ∀ other, (name, other) ∈ entries → other = value) : (ofList entries).get? name = some value := by
  have hname : name ∈ (ofList entries).names := by
    rw [names_ofList, List.mem_eraseDups]
    exact List.mem_map_of_mem hmem
  obtain ⟨found, hfound⟩ := (mem_names_iff _ _).mp hname
  rcases mem_of_get?_foldl_insert hfound with hentry | hempty
  · rw [hfound, hone found hentry]
  · cases hempty

theorem ofList_entries (map : OrderedMap α) : ofList map.entries = map := by
  refine eq_of_names_of_get? ?_ fun name => ?_
  · rw [names_ofList]
    exact eraseDups_of_nodup map.nodup
  · rw [ofList, get?_foldl_insert _ _ _ map.nodup]
    exact Option.or_none

end OrderedMap

/-- A row is rebuilt from its columns, taken in its own order. -/
theorem Row.ofList_values (row : Row) :
    .ofList (row.names.map fun name => (name, row.value name)) = row := by
  have hentries : (row.names.map fun name => (name, row.value name)) = row.entries := by
    have hvalue : ∀ entry ∈ row.entries, (entry.1, row.value entry.1) = entry := by
      intro entry hmem
      rw [value, (OrderedMap.mem_entries_iff row entry.1 entry.2).mp hmem]
      rfl
    rw [OrderedMap.names, List.map_map]
    exact (List.map_congr_left hvalue).trans (List.map_id' _)
  rw [hentries, OrderedMap.ofList_entries]

namespace Select

variable {query : Select} {schema : TableSchema} {rows : List Row} {row : Row}

/-! ## The columns of projected rows -/

/-- The labels that an item selects, each with its value. -/
def cells (schema : TableSchema) (source : Row) (group : Option (List Row)) :
    SelectItem → List (Text × Scalar)
  | .star _ => if group.isSome then [] else schema.columnNames.map fun name => (name, source.value name)
  | .column name label => [(label, source.resolve name)]
  | .aggregate function argument label => [(label, Aggregate.apply function argument (group.getD []))]

theorem project_eq (source : Row) (group : Option (List Row)) :
    query.project schema source group = .ofList (query.items.flatMap (cells schema source group)) := by
  rw [OrderedMap.ofList, List.foldl_flatMap, project]
  congr 1
  funext output item
  cases item with
  | star table => cases group <;> simp [cells, List.foldl_map]
  | column name label => rfl
  | aggregate function argument label => rfl

/-- A projected row has the columns of the result if it is projected from a group just in grouped
queries. -/
theorem names_project (source : Row) {group : Option (List Row)} (hgroup : group.isSome = query.isGrouped) :
    (query.project schema source group).names = query.resultColumns schema := by
  rw [project_eq, OrderedMap.names_ofList, resultColumns, List.map_flatMap]
  congr 2
  funext item
  cases item with
  | star table =>
    simp only [cells, hgroup]
    split <;> simp [Function.comp_def]
  | column name label => rfl
  | aggregate function argument label => rfl

theorem names_of_mem_projectAll {projected : Projected} (h : projected ∈ query.projectAll schema rows) :
    projected.output.names = query.resultColumns schema := by
  unfold projectAll at h
  split at h
  · next hgroups =>
    obtain ⟨group, -, hfirst⟩ := List.mem_filterMap.mp h
    obtain ⟨first, -, rfl⟩ := Option.map_eq_some_iff.mp hfirst
    exact names_project first (by simp [isGrouped, hgroups])
  · next hgroups =>
    split at h
    · next haggregates =>
      rw [List.mem_singleton.mp h]
      exact names_project _ (by simp [isGrouped, haggregates])
    · next haggregates =>
      obtain ⟨row, -, rfl⟩ := List.mem_map.mp h
      exact names_project row (by simp_all [isGrouped])

/-! ## The columns of a result -/

theorem mem_of_mem_distinctBy {columns seen : List Text} {projected : List Projected} {kept : Projected}
    (h : kept ∈ distinctBy columns seen projected) : kept ∈ projected := by
  induction projected generalizing seen with
  | nil => cases h
  | cons first projected ih =>
    simp only [distinctBy] at h
    split at h
    · exact List.mem_cons_of_mem _ (ih h)
    · rcases List.mem_cons.mp h with rfl | hrest
      · exact List.mem_cons_self
      · exact List.mem_cons_of_mem _ (ih hrest)

theorem mem_of_mem_limitRows {limit : Option Nat} {offset : Nat} {projected : List Projected}
    {kept : Projected} (h : kept ∈ limitRows limit offset projected) : kept ∈ projected := by
  cases limit with
  | none => exact List.mem_of_mem_drop h
  | some count => exact List.mem_of_mem_drop (List.mem_of_mem_take h)

/-- Whatever a SELECT filters, orders and leaves out, the rows of its result list the columns of the
result. -/
theorem names_of_mem_resultOf (h : row ∈ (query.resultOf schema rows).rows) :
    row.names = (query.resultOf schema rows).columns := by
  obtain ⟨kept, hkept, rfl⟩ := List.mem_map.mp h
  have hsorted := (Sorting.perm_sort _ _).mem_iff.mp (mem_of_mem_limitRows hkept)
  have hprojected : ∀ {projected}, kept ∈ List.filter (fun row : Projected =>
      query.having.all (·.holds row.output)) (query.projectAll schema projected) →
      kept.output.names = query.resultColumns schema :=
    fun hmem => names_of_mem_projectAll (List.mem_of_mem_filter hmem)
  split at hsorted
  · exact hprojected (mem_of_mem_distinctBy hsorted)
  · exact hprojected hsorted

/-! ## Whole tables -/

/-- The query that a star on a table asks, with no further clauses. -/
def everything (table : Text) : Select :=
  ⟨[.star none], table, none, false, none, [], none, [], none, 0⟩

example : parse "SELECT * FROM team" = .ok (.select (everything "team")) := by
  decide +kernel

theorem sortRows_nil (projected : List Projected) : sortRows [] projected = projected :=
  Sorting.sort_of_never (fun _ _ => rfl) projected

end Select

namespace Database

variable {database : Database} {query : Select} {result : QueryResult} {table : Text}
  {schema : TableSchema}

/-- A SELECT succeeds if its table is there and its items name columns of it. -/
theorem select_eq_ok : database.select query = .ok result ↔
    ∃ schema, database.schemas.get? query.table = some schema ∧
      query.items.forM (query.checkItem schema) = .ok () ∧
      query.resultOf schema (database.tableRows query.table) = result := by
  unfold select
  simp only [Check.bind_eq_ok, Check.pure_eq_ok, requireTable_eq_ok]
  refine exists_congr fun schema => and_congr_right fun _ => ?_
  constructor
  · rintro ⟨_, h⟩
    exact h
  · exact fun h => ⟨(), h⟩

/-- Queries on one table whose items are checked alike fail alike, and their results differ as they do on the
rows of the table. -/
theorem select_eq_map {other : Select} {arrange : QueryResult → QueryResult} (htable : other.table = query.table)
    (hitems : ∀ schema, other.items.forM (other.checkItem schema) = query.items.forM (query.checkItem schema))
    (hresult : ∀ schema, database.schemas.get? query.table = some schema →
      query.resultOf schema (database.tableRows query.table) =
        arrange (other.resultOf schema (database.tableRows query.table))) :
    database.select query = (database.select other).map arrange := by
  have hselect : ∀ query : Select, database.select query = (database.requireTable query.table).bind fun schema =>
      (query.items.forM (query.checkItem schema)).bind fun _ =>
        .ok (query.resultOf schema (database.tableRows query.table)) := fun _ => rfl
  rw [hselect, hselect, htable]
  cases hschema : database.requireTable query.table with
  | error error => rfl
  | ok schema =>
    simp only [Except.bind, hitems]
    cases query.items.forM (query.checkItem schema) with
    | error error => rfl
    | ok _ => exact congrArg Except.ok (hresult schema (requireTable_eq_ok.mp hschema))

/-- The columns of a result are distinct, and its rows list them in their order. -/
theorem names_of_select (h : database.select query = .ok result) :
    result.columns.Nodup ∧ ∀ row ∈ result.rows, row.names = result.columns := by
  obtain ⟨schema, -, -, rfl⟩ := select_eq_ok.mp h
  exact ⟨Integrity.nodup_eraseDups _, fun row hrow => Select.names_of_mem_resultOf hrow⟩

/-- A star finds the stored rows of a table unchanged if they list its columns in their order. -/
theorem select_everything (hschema : database.schemas.get? table = some schema)
    (hdistinct : schema.columnNames.Nodup)
    (hrows : ∀ row ∈ database.tableRows table, row.names = schema.columnNames) :
    database.select (.everything table) = .ok ⟨schema.columnNames, database.tableRows table⟩ := by
  have hcolumns : (Select.everything table).resultColumns schema = schema.columnNames := by
    simp [Select.resultColumns, Select.everything, Select.isGrouped, Select.hasAggregates,
      Select.isAggregate, eraseDups_of_nodup hdistinct]
  have hproject : ∀ row ∈ database.tableRows table,
      (Select.everything table).project schema row none = row := by
    intro row hrow
    rw [Select.project_eq]
    simp only [Select.everything, List.flatMap_cons, List.flatMap_nil, List.append_nil, Select.cells,
      Option.isSome_none, Bool.false_eq_true, if_false, ← hrows row hrow]
    exact row.ofList_values
  have hprojected : ((Select.everything table).projectAll schema (database.tableRows table)).map (·.output) =
      database.tableRows table := by
    have hmap : (Select.everything table).projectAll schema (database.tableRows table) =
        (database.tableRows table).map fun row =>
          ⟨(Select.everything table).project schema row none, row⟩ := rfl
    rw [hmap, List.map_map]
    exact (List.map_congr_left hproject).trans (List.map_id' _)
  have hresult : (Select.everything table).resultOf schema (database.tableRows table) =
      ⟨schema.columnNames, database.tableRows table⟩ := by
    have hall : ∀ {α : Type} (list : List α), list.filter (fun _ => true) = list := by simp
    simp only [Select.resultOf, hcolumns, QueryResult.mk.injEq, true_and]
    change ((Select.limitRows none 0 (Select.sortRows [] (((Select.everything table).projectAll schema
      ((database.tableRows table).filter fun _ => true)).filter fun _ => true))).map (·.output)) = _
    rw [hall, hall, Select.sortRows_nil]
    exact hprojected
  exact select_eq_ok.mpr ⟨schema, hschema, rfl, hresult⟩

end Database

end SnapshotSql
