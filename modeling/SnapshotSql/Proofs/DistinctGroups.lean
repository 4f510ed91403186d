import SnapshotSql.Proofs.GroupedRows
import SnapshotSql.Proofs.KeyText
import SnapshotSql.Proofs.SpelledLexemes

/-! # Distinct rows and groups

Rows of columns are freed of repetitions after their projection, by the columns of the result, and are
grouped before it, by the columns as they are named. A name is its own label, so a repeated label is a
repeated name, and both keys are shared by the same rows. Both ways keep the first of these rows, in the
order of the table, and what comes after them finds the same rows.
-/
namespace SnapshotSql

/-! ## Labels of names -/

theorem collapse_eq_self {text : Text} (h : ∀ c ∈ text, Text.isWordChar c = true ∨ c = .char '.') :
    SourceText.labelOf.collapse false text = text := by
  induction text with
  | nil => rfl
  | cons c text ih =>
    obtain ⟨hc, hrest⟩ := List.forall_mem_cons.mp h
    rw [SourceText.labelOf.collapse, if_pos (by simpa using hc), ih hrest]

/-- A name is shown under itself. -/
theorem labelOf_name {name : Text} (h : IsName name) : SourceText.labelOf name = name :=
  collapse_eq_self fun _ hc => h.1.isWordChar hc

namespace Select

variable {query : Select} {schema : TableSchema} {names : List Text} {name : Text}

def columnItems (names : List Text) : List SelectItem :=
  names.map fun name => .column name (SourceText.labelOf name)

/-- SELECT DISTINCT on columns, with the other clauses of a query. -/
def distinctOf (query : Select) (names : List Text) : Select :=
  { query with items := columnItems names, distinct := true, groupBy := [], having := none }

/-- SELECT on columns with GROUP BY on the same columns, and the other clauses of a query. -/
def groupedBy (query : Select) (names : List Text) : Select :=
  { query with items := columnItems names, distinct := false, groupBy := names, having := none }

def pick (names : List Text) (source : Row) : Row :=
  .ofList (names.map fun name => (name, source.resolve name))

theorem names_pick (names : List Text) (source : Row) : (pick names source).names = names.eraseDups := by
  rw [pick, OrderedMap.names_ofList, List.map_map]
  exact congrArg List.eraseDups (List.map_id' names)

theorem value_pick (h : name ∈ names) (source : Row) : (pick names source).value name = source.resolve name := by
  have hget : (pick names source).get? name = some (source.resolve name) := by
    refine OrderedMap.get?_ofList (List.mem_map.mpr ⟨name, h, rfl⟩) fun other hentry => ?_
    obtain ⟨_, -, heq⟩ := List.mem_map.mp hentry
    cases heq
    rfl
  rw [Row.value, hget]
  rfl

/-- The projection of columns does not look at groups. -/
theorem project_columnItems (hitems : query.items = columnItems names) (hnames : ∀ name ∈ names, IsName name)
    (source : Row) (group : Option (List Row)) : query.project schema source group = pick names source := by
  rw [project_eq, hitems, columnItems, List.flatMap_map, pick, List.map_eq_flatMap]
  congr 1
  refine List.flatMap_congr fun name hname => ?_
  rw [cells, labelOf_name (hnames name hname)]

theorem resultColumns_columnItems (hitems : query.items = columnItems names)
    (hnames : ∀ name ∈ names, IsName name) : query.resultColumns schema = names.eraseDups := by
  obtain ⟨group, hgroup⟩ : ∃ group : Option (List Row), group.isSome = query.isGrouped := by
    cases query.isGrouped
    · exact ⟨none, rfl⟩
    · exact ⟨some [], rfl⟩
  rw [← names_project .empty hgroup, project_columnItems hitems hnames, names_pick]

theorem hasAggregates_columnItems (hitems : query.items = columnItems names) : query.hasAggregates = false := by
  rw [hasAggregates, hitems, columnItems, List.any_map, List.any_eq_false]
  exact fun _ _ => Bool.false_ne_true

/-! ## Repetitions -/

def Projected.key (columns : List Text) (row : Projected) : Text :=
  Key.ofValues (row.output.values columns)

/-- Freeing rows of repetitions keeps the first row for each key that was not seen before. -/
theorem distinctBy_eq_firsts (columns seen : List Text) (rows : List Projected) :
    distinctBy columns seen rows =
      Grouping.firsts (Projected.key columns) (rows.filter (·.key columns ∉ seen)) := by
  induction rows generalizing seen with
  | nil => rfl
  | cons row rows ih =>
    change (if seen.contains (row.key columns) then distinctBy columns seen rows
      else row :: distinctBy columns (row.key columns :: seen) rows) = _
    rw [List.filter_cons]
    by_cases hseen : row.key columns ∈ seen
    · rw [if_pos (List.contains_iff_mem.mpr hseen), if_neg (by simpa using hseen), ih]
    · have hlater : (rows.filter (·.key columns ∉ seen)).filter (·.key columns ≠ row.key columns) =
          rows.filter (·.key columns ∉ row.key columns :: seen) := by
        rw [List.filter_filter]
        exact List.filter_congr fun other _ => by simp [not_or]
      rw [if_neg (by simpa using hseen), if_pos (decide_eq_true hseen), Grouping.firsts_cons, hlater, ih]

/-- Two rows show the same values under some names if and only if they have one key for these names. -/
theorem key_pick_iff (row other : Row) :
    Projected.key names.eraseDups ⟨pick names row, row⟩ = Projected.key names.eraseDups ⟨pick names other, other⟩ ↔
      Key.ofValues (names.map row.resolve) = Key.ofValues (names.map other.resolve) := by
  have hvalues : ∀ source, (pick names source).values names.eraseDups = names.eraseDups.map source.resolve :=
    fun source => List.map_congr_left fun name hname => value_pick (List.mem_eraseDups.mp hname) source
  rw [Projected.key, Projected.key, hvalues, hvalues, Key.ofValues_eq_iff, Key.ofValues_eq_iff, List.map_map,
    List.map_map, List.map_map, List.map_map, List.map_inj_left, List.map_inj_left]
  simp only [List.mem_eraseDups]

variable (hnames : ∀ name ∈ names, IsName name)
include hnames

/-- Columns that are not grouped are picked from every row. -/
theorem projectAll_columnItems (hitems : query.items = columnItems names) (hgroupBy : query.groupBy = [])
    (rows : List Row) : query.projectAll schema rows = rows.map fun row => ⟨pick names row, row⟩ := by
  have hproject : ∀ row, query.project schema row none = pick names row :=
    fun row => project_columnItems hitems hnames row none
  rw [projectAll, if_neg (by simp [hgroupBy]), if_neg (by simp [hasAggregates_columnItems hitems])]
  simp only [hproject]

theorem projectAll_groupedBy (hne : names ≠ []) (rows : List Row) :
    (query.groupedBy names).projectAll schema rows =
      (Grouping.firsts (query.groupedBy names).groupKey rows).map fun row => ⟨pick names row, row⟩ := by
  have hproject : ∀ row group, (query.groupedBy names).project schema row (some group) = pick names row :=
    fun row group => project_columnItems rfl hnames row (some group)
  rw [projectAll, if_pos (by simpa [groupedBy] using hne), Grouping.firsts, List.map_filterMap]
  simp only [hproject]
  exact List.filterMap_map

/-- The rows that DISTINCT keeps are the first rows of the groups. -/
theorem distinctBy_projectAll (hne : names ≠ []) (rows : List Row) :
    distinctBy names.eraseDups [] ((query.distinctOf names).projectAll schema rows) =
      (query.groupedBy names).projectAll schema rows := by
  rw [distinctBy_eq_firsts, List.filter_eq_self.mpr (by simp), projectAll_columnItems hnames rfl rfl,
    projectAll_groupedBy hnames hne, Grouping.firsts_map, Grouping.firsts_congr key_pick_iff]
  rfl

theorem resultOf_distinctOf (hne : names ≠ []) (rows : List Row) :
    (query.distinctOf names).resultOf schema rows = (query.groupedBy names).resultOf schema rows := by
  have hdistinct : (query.distinctOf names).resultColumns schema = names.eraseDups :=
    resultColumns_columnItems rfl hnames
  have hgrouped : (query.groupedBy names).resultColumns schema = names.eraseDups :=
    resultColumns_columnItems rfl hnames
  have hkeep : ∀ projected : List Projected, projected.filter (fun _ => true) = projected := List.filter_true
  have hfound : (query.distinctOf names).found schema rows = (query.groupedBy names).found schema rows := by
    rw [found, found, hdistinct]
    change distinctBy names.eraseDups [] (List.filter (fun _ => true)
        ((query.distinctOf names).projectAll schema (query.passing rows))) =
      List.filter (fun _ => true) ((query.groupedBy names).projectAll schema (query.passing rows))
    rw [hkeep, hkeep, distinctBy_projectAll hnames hne]
  rw [resultOf_eq, resultOf_eq, hdistinct, hgrouped, hfound]
  rfl

end Select

namespace Database

variable {database : Database} {query : Select} {names : List Text}

/-- SELECT DISTINCT on columns and GROUP BY on the same columns fail alike or have the same result. -/
theorem select_distinctOf (hne : names ≠ []) (hnames : ∀ name ∈ names, IsName name) :
    database.select (query.distinctOf names) = database.select (query.groupedBy names) := by
  have hresult : ∀ schema : TableSchema,
      (query.distinctOf names).resultOf schema (database.tableRows query.table) =
        (query.groupedBy names).resultOf schema (database.tableRows query.table) :=
    fun _ => Select.resultOf_distinctOf hnames hne _
  unfold select
  refine congrArg _ (funext fun schema => ?_)
  refine congrArg _ (funext fun _ => ?_)
  exact congrArg Except.ok (hresult schema)

def lastPlayer : Select :=
  ⟨[], "player", none, false, none, [], none, [⟨"id", true⟩], some 1, 0⟩

def teamNames : List Text :=
  ["team", "player.team"]

example : parse "SELECT DISTINCT team, player.team FROM player ORDER BY id DESC LIMIT 1" =
    .ok (.select (lastPlayer.distinctOf teamNames)) := by
  decide +kernel

example : parse "SELECT team, player.team FROM player GROUP BY team, player.team ORDER BY id DESC LIMIT 1" =
    .ok (.select (lastPlayer.groupedBy teamNames)) := by
  decide +kernel

theorem select_distinctOf_teams : teamNames ≠ [] ∧ (∀ name ∈ teamNames, IsName name) ∧
    league.select (lastPlayer.distinctOf teamNames) = league.select (lastPlayer.groupedBy teamNames) := by
  have hnames : ∀ name ∈ teamNames, IsName name := by decide
  exact ⟨by decide, hnames, select_distinctOf (by decide) hnames⟩

end Database

end SnapshotSql
