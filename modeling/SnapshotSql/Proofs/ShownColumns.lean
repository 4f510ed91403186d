import SnapshotSql.Proofs.GroupedRows

/-! # The columns that items offer

Which columns a result has is told by the items of its query, by whether they are shown for groups, and by
the schema of the table. It depends neither on the rows that are found nor on how many there are: an aggregate
over no rows at all still makes one row, with all columns. A label that several items offer is one column.
-/
namespace SnapshotSql

namespace Select

variable {query : Select} {schema : TableSchema} {label : Text}

/-- An item has this label, or is a star on a table that has such a column. A star offers nothing if rows
are shown for groups. -/
inductive Offers (query : Select) (schema : TableSchema) (label : Text) : Prop where
  | labelled {item : SelectItem} (hitem : item ∈ query.items) (hlabel : item.label? = some label)
  | star {table : Option Text} (hitem : .star table ∈ query.items) (hgrouped : query.isGrouped = false)
      (hcolumn : label ∈ schema.columnNames)

theorem mem_resultColumns_iff : label ∈ query.resultColumns schema ↔ query.Offers schema label := by
  rw [resultColumns, List.mem_eraseDups, List.mem_flatMap]
  constructor
  · rintro ⟨item, hitem, hlabel⟩
    cases item with
    | star table =>
      cases hgrouped : query.isGrouped with
      | false => exact .star hitem hgrouped (by simpa [hgrouped] using hlabel)
      | true => simp [hgrouped] at hlabel
    | column name other => exact .labelled hitem (congrArg some (List.mem_singleton.mp hlabel).symm)
    | aggregate function argument other => exact .labelled hitem (congrArg some (List.mem_singleton.mp hlabel).symm)
  · rintro (@⟨item, hitem, hlabel⟩ | ⟨hitem, hgrouped, hcolumn⟩)
    · refine ⟨item, hitem, ?_⟩
      cases item <;> simp_all [SelectItem.label?]
    · exact ⟨_, hitem, by simpa [hgrouped] using hcolumn⟩

end Select

namespace Database

variable {database : Database} {query : Select} {result : QueryResult}

/-- The columns of a result are those that its items offer, each once, and every row has just these. -/
theorem columns_of_select (h : database.select query = .ok result) :
    result.columns.Nodup ∧ (∀ row ∈ result.rows, row.names = result.columns) ∧
      ∃ schema, database.schemas.get? query.table = some schema ∧
        ∀ label, label ∈ result.columns ↔ query.Offers schema label := by
  obtain ⟨hnodup, hnames⟩ := names_of_select h
  obtain ⟨schema, hschema, -, rfl⟩ := select_eq_ok.mp h
  exact ⟨hnodup, hnames, schema, hschema, fun label => Select.mem_resultColumns_iff⟩

/-- Stars, a column under another one's name and the same column again. -/
def crowdedPlayers : Select :=
  ⟨[.column "team" "id", .star none, .star (some "p"), .column "id" "number", .column "p.id" "number"], "player",
    some "p", true, none, [], none, [⟨"number", true⟩], none, 0⟩

example : parse "SELECT DISTINCT team AS id, *, p.*, id AS number, p.id AS number FROM player p ORDER BY number DESC" =
    .ok (.select crowdedPlayers) := by
  decide +kernel

theorem columns_of_select_players : ∃ result, league.select crowdedPlayers = .ok result ∧
    result.columns.Nodup ∧ (∀ row ∈ result.rows, row.names = result.columns) ∧
      ∃ schema, league.schemas.get? crowdedPlayers.table = some schema ∧
        ∀ label, label ∈ result.columns ↔ crowdedPlayers.Offers schema label := by
  have hok : (league.select crowdedPlayers).isOk = true := by decide +kernel
  obtain ⟨result, h⟩ := Check.exists_of_isOk hok
  exact ⟨result, h, columns_of_select h⟩

end Database

end SnapshotSql
