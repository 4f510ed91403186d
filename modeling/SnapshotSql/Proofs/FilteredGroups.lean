import SnapshotSql.Proofs.GroupedRows
import SnapshotSql.Proofs.RowReadings
import SnapshotSql.Proofs.ExactKeys

/-! # Conditions before and after grouping

A condition on the columns by which rows are grouped has one verdict for all rows of a group, if keys tell
the values of these columns. WHERE asks it of each row and HAVING of the row that shows the group: the same
groups are left, each with all its rows and in the same order. Keys do not tell two texts apart of which one
has a character where the other one has the two surrogates of it. Rows with such texts share a group,
although a condition tells them apart, and then the two queries differ.
-/
namespace SnapshotSql

namespace Select

variable {query : Select} {schema : TableSchema} {condition : Condition} {rows : List Row}

/-- The columns of GROUP BY are selected under their own names, which no aggregate takes. -/
structure ListsGroups (query : Select) : Prop where
  listed : ∀ name ∈ query.groupBy, .column name name ∈ query.items
  ownNames : ∀ name label, .column name label ∈ query.items → label = name
  aggregates : ∀ function argument label, .aggregate function argument label ∈ query.items →
    label ∉ query.groupBy

/-- One grouping column, with one aggregate beside it. -/
theorem ListsGroups.ofOne {name argument label : Text} {function : AggregateFunction}
    (hitems : query.items = [.column name name, .aggregate function argument label])
    (hgroupBy : query.groupBy = [name]) (hlabel : label ≠ name) : query.ListsGroups where
  listed := by simp [hitems, hgroupBy]
  ownNames := by
    intro column label h
    simp only [hitems, List.mem_cons, SelectItem.column.injEq, reduceCtorEq, List.not_mem_nil, or_false] at h
    rw [h.1, h.2]
  aggregates := by
    intro function argument label h
    simp only [hitems, List.mem_cons, SelectItem.aggregate.injEq, reduceCtorEq, List.not_mem_nil, false_or,
      or_false] at h
    rw [hgroupBy, h.2.2]
    simpa using hlabel

def filteredBefore (query : Select) (condition : Condition) : Select :=
  { query with condition := some condition, having := none }

def filteredAfter (query : Select) (condition : Condition) : Select :=
  { query with condition := none, having := some condition }

/-- The row that shows a group reads the grouping columns as the row that it is projected from. -/
theorem resolve_project (hlists : query.ListsGroups) {name : Text} (hname : name ∈ query.groupBy)
    (source : Row) (members : List Row) :
    (query.project schema source (some members)).resolve name = source.resolve name := by
  have hget : (query.project schema source (some members)).get? name = some (source.resolve name) := by
    rw [project_eq]
    apply OrderedMap.get?_ofList
    · exact List.mem_flatMap.mpr ⟨_, hlists.listed name hname, List.mem_singleton_self _⟩
    · intro other hother
      obtain ⟨item, hitem, hcell⟩ := List.mem_flatMap.mp hother
      cases item with
      | star table => cases hcell
      | column column label =>
        cases List.mem_singleton.mp hcell
        rw [hlists.ownNames _ _ hitem]
      | aggregate function argument label =>
        cases List.mem_singleton.mp hcell
        exact absurd hname (hlists.aggregates _ _ _ hitem)
  rw [Row.resolve, hget]

/-- Rows of one group hold the same values under the grouping columns. -/
theorem resolve_of_groupKey {row other : Row} (hrow : ∀ name ∈ query.groupBy, (row.resolve name).ToldByKey)
    (hother : ∀ name ∈ query.groupBy, (other.resolve name).ToldByKey)
    (h : query.groupKey row = query.groupKey other) :
    ∀ name ∈ query.groupBy, row.resolve name = other.resolve name := by
  rw [groupKey, groupKey, Key.ofValues_eq_iff, List.map_map, List.map_map, List.map_inj_left] at h
  exact fun name hname => Key.part_injective (hrow name hname) (hother name hname) (h name hname)

variable (hgroupBy : query.groupBy ≠ []) (hlists : query.ListsGroups)
  (hcolumns : ∀ name ∈ condition.columns, name ∈ query.groupBy)
  (htold : ∀ row ∈ rows, ∀ name ∈ query.groupBy, (row.resolve name).ToldByKey)
include hgroupBy hlists hcolumns htold

/-- Rows that pass a condition on the grouping columns are grouped into the groups that pass it. -/
theorem projectAll_filter : query.projectAll schema (rows.filter fun row => condition.holds row) =
    (query.projectAll schema rows).filter fun row => condition.holds row.output := by
  have hverdict : ∀ row ∈ rows, ∀ other ∈ rows, query.groupKey row = query.groupKey other →
      condition.holds row = condition.holds other := fun row hrow other hother hkey =>
    Condition.holds_of_resolve fun name hname =>
      resolve_of_groupKey (htold row hrow) (htold other hother) hkey name (hcolumns name hname)
  obtain ⟨keep, hkeep⟩ := Grouping.exists_keep hverdict
  have hshown : ∀ key ∈ Grouping.keys query.groupKey rows, keep key = condition.holds
      (query.project schema ((query.group rows key).headD .empty) (some (query.group rows key))) := by
    intro key hkey
    obtain ⟨first, hfirst⟩ := Grouping.exists_head?_members hkey
    have hmem : first ∈ Grouping.members query.groupKey rows key := List.mem_of_head? hfirst
    obtain ⟨hrow, hfirstKey⟩ := List.mem_filter.mp hmem
    rw [List.headD_eq_head?_getD, group, hfirst, Option.getD_some, ← of_decide_eq_true hfirstKey,
      ← hkeep first hrow]
    exact Condition.holds_of_resolve fun name hname => (resolve_project hlists (hcolumns name hname) _ _).symm
  calc query.projectAll schema (rows.filter fun row => condition.holds row)
      = query.projectAll schema (rows.filter fun row => keep (query.groupKey row)) := by
        rw [List.filter_congr hkeep]
    _ = ((Grouping.keys query.groupKey rows).filter keep).map fun key =>
          ⟨query.project schema ((query.group rows key).headD .empty) (some (query.group rows key)),
            (query.group rows key).headD .empty⟩ := by
        rw [projectAll_groups hgroupBy, Grouping.keys_filter]
        apply List.map_congr_left
        intro key hkey
        rw [group, Grouping.members_filter (List.mem_filter.mp hkey).2]
        rfl
    _ = (query.projectAll schema rows).filter fun row => condition.holds row.output := by
        rw [projectAll_groups hgroupBy, List.filter_map, List.filter_congr hshown]
        rfl

theorem found_filteredBefore :
    (query.filteredBefore condition).found schema rows = (query.filteredAfter condition).found schema rows := by
  have hsame : List.filter (fun _ => true) (query.projectAll schema (rows.filter fun row => condition.holds row)) =
      (query.projectAll schema (rows.filter fun _ => true)).filter fun row => condition.holds row.output := by
    rw [List.filter_true, List.filter_true]
    exact projectAll_filter hgroupBy hlists hcolumns htold
  exact congrArg (fun projected =>
    if query.distinct then distinctBy (query.resultColumns schema) [] projected else projected) hsame

end Select

namespace Database

variable {database : Database} {query : Select} {condition : Condition}

/-- Where keys tell the values of the grouping columns, a condition on these columns leaves the same groups
before grouping as after it. -/
theorem select_filteredBefore (hgroupBy : query.groupBy ≠ []) (hlists : query.ListsGroups)
    (hcolumns : ∀ name ∈ condition.columns, name ∈ query.groupBy)
    (htold : ∀ row ∈ database.tableRows query.table, ∀ name ∈ query.groupBy, (row.resolve name).ToldByKey) :
    database.select (query.filteredBefore condition) = database.select (query.filteredAfter condition) := by
  have hselect : database.select (query.filteredBefore condition) =
      (database.select (query.filteredAfter condition)).map id := by
    refine select_eq_map rfl (fun _ => rfl) fun schema _ => ?_
    change (query.filteredBefore condition).resultOf schema (database.tableRows query.table) =
      (query.filteredAfter condition).resultOf schema (database.tableRows query.table)
    rw [Select.resultOf_eq, Select.resultOf_eq, Select.found_filteredBefore hgroupBy hlists hcolumns htold]
    rfl
  rw [hselect, Except.map_id]
  rfl

def teamsByName : Select :=
  ⟨[.column "name" "name", .aggregate .count "*" "n"], "team", none, false, none, ["name"], none, [], none, 0⟩

def someNames : Condition :=
  .like (.column "name") "r%" false

example : parse "SELECT name, COUNT(*) AS n FROM team WHERE name LIKE 'r%' GROUP BY name" =
    .ok (.select (teamsByName.filteredBefore someNames)) := by
  decide +kernel

example : parse "SELECT name, COUNT(*) AS n FROM team GROUP BY name HAVING name LIKE 'r%'" =
    .ok (.select (teamsByName.filteredAfter someNames)) := by
  decide +kernel

theorem select_filteredBefore_names : teamsByName.groupBy ≠ [] ∧ teamsByName.ListsGroups ∧
    (∀ name ∈ someNames.columns, name ∈ teamsByName.groupBy) ∧
    (∀ row ∈ league.tableRows teamsByName.table, ∀ name ∈ teamsByName.groupBy, (row.resolve name).ToldByKey) ∧
    league.select (teamsByName.filteredBefore someNames) = league.select (teamsByName.filteredAfter someNames) := by
  have hlists : teamsByName.ListsGroups := .ofOne rfl rfl (by decide)
  have hcolumns : ∀ name ∈ someNames.columns, name ∈ teamsByName.groupBy := by decide
  have htold : ∀ row ∈ league.tableRows teamsByName.table, ∀ name ∈ teamsByName.groupBy,
      (row.resolve name).ToldByKey := by decide +kernel
  exact ⟨by decide, hlists, hcolumns, htold, select_filteredBefore (by decide) hlists hcolumns htold⟩

/-! ## Surrogates that are not joined -/

/-- A face, stored once as one character and once as its two surrogates, of which the second one is added to
the first. -/
def faceTexts : List (Int × Text) :=
  [(64, "CREATE TABLE post(id INT PRIMARY KEY, face TEXT)"),
    (64, Text.ofString "INSERT INTO post VALUES (1, '😀'), (2, '" ++ .surrogate 0x3D :: Text.ofString "')"),
    (64, Text.ofString "UPDATE post SET face = face + '" ++ .surrogate 0x600 :: Text.ofString "' WHERE id = 2")]

def faces : Database :=
  ⟨"post",
    .ofList [("post", ⟨"post", [⟨"id", .int, false, false, false⟩, ⟨"face", .text, false, false, false⟩],
      ["id"], [], [], .column, false⟩)],
    .ofList [("post", [.ofList [("id", .int 1), ("face", .text "😀")],
      .ofList [("id", .int 2), ("face", .text [.surrogate 0x3D, .surrogate 0x600])]])]⟩

set_option maxRecDepth 20000 in
theorem faces_reachable : faces.Reachable :=
  ⟨faceTexts, by decide +kernel⟩

def postsByFace : Select :=
  ⟨[.column "face" "face", .aggregate .count "*" "posts"], "post", none, false, none, ["face"], none, [], none, 0⟩

def isSmile : Condition :=
  .compare (.column "face") .equal (.literal (.text "😀"))

/-- It is not enough that the grouping columns hold no floats. -/
theorem not_filteredBefore_without_floats : ¬ ∀ (database : Database) (query : Select) (condition : Condition),
    database.Reachable → query.groupBy ≠ [] → query.ListsGroups →
    (∀ name ∈ condition.columns, name ∈ query.groupBy) →
    (∀ row ∈ database.tableRows query.table, ∀ name ∈ query.groupBy, ∀ number, row.resolve name ≠ .float number) →
    database.select (query.filteredBefore condition) = database.select (query.filteredAfter condition) := by
  intro hevery
  have htexts : ∀ row ∈ faces.tableRows postsByFace.table, ∀ name ∈ postsByFace.groupBy,
      Service.isText (row.resolve name) = true := by decide +kernel
  have hsame : faces.select (postsByFace.filteredBefore isSmile) =
      faces.select (postsByFace.filteredAfter isSmile) := by
    refine hevery faces postsByFace isSmile faces_reachable (by decide) (.ofOne rfl rfl (by decide)) (by decide)
      fun row hrow name hname number hfloat => ?_
    have htext := htexts row hrow name hname
    rw [hfloat] at htext
    cases htext
  -- Before grouping one row passes, after it the group of both.
  exact absurd hsame (by decide +kernel)

end Database

end SnapshotSql
