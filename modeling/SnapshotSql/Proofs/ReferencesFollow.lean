import SnapshotSql.Proofs.KeyInvariant
import SnapshotSql.Proofs.UpdateRuns

/-! # Rows follow their parents

Where each table has at most one foreign key, to the primary key of another base table, an UPDATE is one
simultaneous replacement: every table is revised at most once, and a row that referred to the row at
some place refers to the row at that place afterwards, whatever keys have been exchanged. A chain of
references hands this on from table to table, in the order of the schemas.
-/
namespace SnapshotSql

/-- Two rows have the same key under some columns if their values agree as parts of a key. -/
theorem Row.ofValues_eq_iff (row other : Row) (columns : List Text) :
    Key.ofValues (row.values columns) = Key.ofValues (other.values columns) ↔
      ∀ column ∈ columns, Key.part (row.value column) = Key.part (other.value column) := by
  rw [Key.ofValues_eq_iff, Row.values, Row.values, List.map_map, List.map_map, List.map_inj_left]
  rfl

namespace Database

open Integrity
open Row (AgreeOn)

variable {database : Database} {table : Text} {foreignKey : ForeignKey}

/-- A foreign key refers to the whole primary key of a table that is no view. -/
def PointsAtWholeKey (database : Database) (foreignKey : ForeignKey) : Prop :=
  ∃ schema, database.schemas.get? foreignKey.refTable = some schema ∧ schema.isView = false ∧
    ∀ column, column ∈ foreignKey.refColumns ↔ column ∈ schema.primaryKey

/-- No two rows of a table offer the same primary key. -/
theorem PointsAtWholeKey.determined (h : database.PointsAtWholeKey foreignKey)
    (hbuilt : database.WellBuilt) (hkeys : database.KeysHold) :
    Determined foreignKey (database.tableRows foreignKey.refTable) := by
  obtain ⟨schema, hschema, hview, hcolumns⟩ := h
  have hprimary := (hkeys _ schema hschema).primary ((hbuilt.schema _ schema hschema).primaryKey hview)
  have hlt : ∀ {key first second}, Offers (database.tableRows foreignKey.refTable) foreignKey key first →
      Offers (database.tableRows foreignKey.refTable) foreignKey key second → ¬ first < second := by
    rintro key first second ⟨row, hrow, rfl⟩ ⟨other, hother, hkey⟩ hlt
    obtain ⟨hfirst, rfl⟩ := List.getElem?_eq_some_iff.mp hrow
    obtain ⟨hsecond, rfl⟩ := List.getElem?_eq_some_iff.mp hother
    refine List.pairwise_iff_getElem.mp hprimary first second hfirst hsecond hlt ?_
    rw [Row.ofValues_eq_iff] at hkey ⊢
    exact fun column hcolumn => (hkey column ((hcolumns column).mpr hcolumn)).symm
  intro key position other hposition hother
  exact Nat.le_antisymm (Nat.not_lt.mp (hlt hother hposition)) (Nat.not_lt.mp (hlt hposition hother))

theorem PointsAtWholeKey.complete (h : database.PointsAtWholeKey foreignKey)
    (hkeys : database.KeysHold) {parent : Row}
    (hparent : parent ∈ database.tableRows foreignKey.refTable) :
    Key.hasNull (parent.values foreignKey.refColumns) = false := by
  obtain ⟨schema, hschema, -, hcolumns⟩ := h
  rw [Key.hasNull_values_eq_false_iff]
  intro column hcolumn
  exact (hkeys _ schema hschema).complete parent hparent column ((hcolumns column).mp hcolumn)

/-- Each table has one foreign key at most, which refers to the primary key of another base table. -/
structure SingleReferences (database : Database) : Prop where
  single : ∀ table, (database.foreignKeys table).length ≤ 1
  apart : ∀ table, ∀ foreignKey ∈ database.foreignKeys table, foreignKey.refTable ≠ table
  key : ∀ table, ∀ foreignKey ∈ database.foreignKeys table, database.PointsAtWholeKey foreignKey

theorem SingleReferences.foreignKeys_eq (h : database.SingleReferences)
    (hforeign : foreignKey ∈ database.foreignKeys table) : database.foreignKeys table = [foreignKey] := by
  have hlength := h.single table
  match hkeys : database.foreignKeys table with
  | [] =>
    rw [hkeys] at hforeign
    cases hforeign
  | [_] =>
    rw [hkeys, List.mem_singleton] at hforeign
    rw [hforeign]
  | _ :: _ :: _ => simp [hkeys] at hlength

end Database

namespace Integrity

open Row (AgreeOn)

variable {database : Database} {target table : Text} {changes : List Change}
  {revisions : List Revision} {after : Scratch} {foreignKey : ForeignKey}

theorem solePath_of_single (revisions : List Revision) (hsingle : database.SingleReferences)
    (hforeign : foreignKey ∈ database.foreignKeys table) :
    SolePath database revisions table foreignKey fun _ => True := by
  have hkeys := hsingle.foreignKeys_eq hforeign
  refine ⟨by simp [hkeys], fun _ _ => trivial, fun other hother hne => ?_⟩
  rw [hkeys, List.mem_singleton] at hother
  exact absurd hother hne

/-- Every table is revised once at most, those that are referred to before the others. -/
theorem UpdateRun.revisedOnce (h : UpdateRun database target changes revisions after)
    (hlisted : database.Listed) (hbuilt : database.WellBuilt) (hsingle : database.SingleReferences)
    (table : Text) : ∃ changed, RevisedOnce revisions table (fun _ => True) (database.tableRows table)
      (Staging.rowsIn database after table) changed := by
  induction hplace : database.place table using Nat.strongRecOn generalizing table with
  | ind place ih =>
  subst hplace
  by_cases htarget : table = target
  · subst htarget
    exact ⟨_, h.revisedOnce_target hlisted hbuilt fun foreignKey hforeign hself =>
      absurd hself (hsingle.apart table foreignKey hforeign)⟩
  have hstart : ∀ revision ∈ (startOf database target changes).revisions, revision.table ≠ table :=
    List.forall_mem_singleton.mpr (Ne.symm htarget)
  rw [← startOf_rows_of_ne htarget]
  cases hkeys : database.foreignKeys table with
  | nil =>
    refine ⟨[], h.trace.revisedOnce_of_idle hstart fun question hquestion hchild => ?_⟩
    obtain ⟨revision, -, hasked⟩ := List.mem_flatMap.mp hquestion
    obtain ⟨-, hforeign, -⟩ := (mem_questionsAbout ..).mp hasked
    rw [hchild, hkeys] at hforeign
    cases hforeign
  | cons foreignKey _ =>
    have hforeign : foreignKey ∈ database.foreignKeys table := by simp [hkeys]
    obtain ⟨changed, hparent⟩ := ih _
      (hlisted.place_lt hbuilt hforeign (hsingle.apart table foreignKey hforeign))
      foreignKey.refTable rfl
    exact h.trace.revisedOnce_of_solePath rfl hstart (solePath_of_single revisions hsingle hforeign)
      (hparent.rekeys foreignKey rfl fun _ _ => trivial)

/-! ## What each action demands -/

/-- What becomes of a row that referred to a parent, by the action of its foreign key. -/
structure Follows (foreignKey : ForeignKey) (row parent row' parent' : Row) : Prop where
  cascade : foreignKey.onUpdate = .cascade → Refers foreignKey row' parent'
  restrict : foreignKey.onUpdate = .restrict →
    AgreeOn (· ∈ foreignKey.columns) row' row ∧ KeyKept foreignKey parent parent'
  setNull : foreignKey.onUpdate = .setNull →
    (KeyKept foreignKey parent parent' → AgreeOn (· ∈ foreignKey.columns) row' row) ∧
      (¬ KeyKept foreignKey parent parent' →
        ∀ column ∈ foreignKey.columns, row'.get? column = some .null)

variable {row parent row' parent' : Row}

theorem Refers.of_agreeOn (h : Refers foreignKey row parent)
    (hrow : AgreeOn (· ∈ foreignKey.columns) row' row) (hkept : KeyKept foreignKey parent parent') :
    Refers foreignKey row' parent' := by
  rw [Refers, reference?_congr (hrow.values fun _ hmem => hmem), h, hkept]

/-- A row with the new values of a parent refers to it. -/
theorem refers_withReference (hpaired : Paired foreignKey)
    (hcomplete : Key.hasNull (parent'.values foreignKey.refColumns) = false)
    (hrow : AgreeOn (· ∈ foreignKey.columns) row'
      (withReference foreignKey (parent'.values foreignKey.refColumns) row)) :
    Refers foreignKey row' parent' := by
  have hvalues : row'.values foreignKey.columns = parent'.values foreignKey.refColumns := by
    rw [hrow.values fun _ hmem => hmem, values_withReference hpaired]
  exact (reference?_eq_some_iff ..).mpr ⟨hvalues ▸ hcomplete, by rw [hvalues]⟩

/-- A row that moves with the revision of its parent does what the action demands. -/
theorem ParentsRevised.follows (table : Text) {parents parents' : List Row} {changed : List (Row × Row)} {place : Nat}
    (h : ParentsRevised revisions foreignKey parents parents' changed) (hpaired : Paired foreignKey)
    (hparent : parents[place]? = some parent) (hparent' : parents'[place]? = some parent')
    (href : Refers foreignKey row parent)
    (hrow : AgreeOn (· ∈ foreignKey.columns) row'
      (Question.move ⟨⟨foreignKey.refTable, changed⟩, table, foreignKey⟩ row))
    (hrestrict : foreignKey.onUpdate = .restrict →
      ¬ Question.concerns ⟨⟨foreignKey.refTable, changed⟩, table, foreignKey⟩ row = true) :
    Follows foreignKey row parent row' parent' := by
  rw [h.move_eq hparent hparent' href] at hrow
  rw [h.concerns_iff hparent hparent' table href, not_not] at hrestrict
  by_cases hkept : KeyKept foreignKey parent parent'
  · rw [if_pos hkept] at hrow
    exact ⟨fun _ => href.of_agreeOn hrow hkept, fun _ => ⟨hrow, hkept⟩,
      fun _ => ⟨fun _ => hrow, fun hnot => absurd hkept hnot⟩⟩
  · rw [if_neg hkept] at hrow
    refine ⟨fun haction => ?_, fun haction => absurd (hrestrict haction) hkept,
      fun haction => ⟨fun hkept' => absurd hkept' hkept, fun _ column hcolumn => ?_⟩⟩
    · rw [if_pos haction] at hrow
      exact refers_withReference hpaired (h.complete parent' (List.mem_of_getElem? hparent')) hrow
    · rw [if_neg (by simp [haction])] at hrow
      rw [hrow column hcolumn, get?_nullOut, if_pos hcolumn]

/-- The row at a place after the UPDATE, on a sole path. -/
theorem UpdateRun.exists_moved (h : UpdateRun database target changes revisions after)
    {columns : Text → Prop} {revision : Revision} (hne : table ≠ target)
    (hpath : SolePath database revisions table foreignKey columns)
    (htable : revision.table = foreignKey.refTable)
    (honce : revisions.filter (Revision.rekeys foreignKey) =
      [revision].filter (Revision.rekeys foreignKey))
    {position : Nat} (hrow : (database.tableRows table)[position]? = some row) :
    ∃ row', (Staging.rowsIn database after table)[position]? = some row' ∧
      AgreeOn columns row' (Question.move ⟨revision, table, foreignKey⟩ row) := by
  refine ⟨_, ?_, hpath.agreeOn_moves htable honce row⟩
  rw [h.rows_eq, startOf_rows_of_ne hne, List.getElem?_map, hrow, Option.map_some]

end Integrity

namespace Database

open Integrity
open Row (AgreeOn)

variable {database : Database} {limit : Int} {update : Update} {outcome : Outcome} {child : Text}
  {foreignKey : ForeignKey}

/-- The rows of a table follow their parents from one snapshot to the next, each place for itself, and
keep references that had a null. -/
structure RowsFollow (before after : Database) (child : Text) (foreignKey : ForeignKey) : Prop where
  referring : ∀ (position place : Nat) (row parent : Row),
    (before.tableRows child)[position]? = some row →
    (before.tableRows foreignKey.refTable)[place]? = some parent → Refers foreignKey row parent →
      ∃ row' parent', (after.tableRows child)[position]? = some row' ∧
        (after.tableRows foreignKey.refTable)[place]? = some parent' ∧
        Follows foreignKey row parent row' parent'
  incomplete : ∀ (position : Nat) (row : Row), (before.tableRows child)[position]? = some row →
    Key.hasNull (row.values foreignKey.columns) = true →
      ∃ row', (after.tableRows child)[position]? = some row' ∧
        AgreeOn (· ∈ foreignKey.columns) row' row

/-- The parents that a foreign key refers to by their primary key, in a snapshot and the next. -/
theorem PointsAtWholeKey.parentsRevised {next : Database} {revisions : List Revision}
    {columns : Text → Prop} {changed : List (Row × Row)} (hkey : database.PointsAtWholeKey foreignKey)
    (hbuilt : database.WellBuilt) (hkeys : database.KeysHold) (hkeys' : next.KeysHold)
    (hschemas : next.schemas = database.schemas)
    (hrevised : RevisedOnce revisions foreignKey.refTable columns
      (database.tableRows foreignKey.refTable) (next.tableRows foreignKey.refTable) changed)
    (hcolumns : ∀ column ∈ foreignKey.refColumns, columns column) :
    ParentsRevised revisions foreignKey (database.tableRows foreignKey.refTable)
      (next.tableRows foreignKey.refTable) changed := by
  have hkey' : next.PointsAtWholeKey foreignKey := by
    rwa [PointsAtWholeKey, hschemas]
  exact ⟨hrevised.mono hcolumns, hkey.determined hbuilt hkeys, fun _ => hkey'.complete hkeys'⟩

/-- Where each table of a reachable snapshot has one foreign key at most, to the primary key of another
base table, the rows of every table but the one of an UPDATE follow their parents. -/
theorem rows_follow (hreachable : database.Reachable) (hsingle : database.SingleReferences)
    (hupdate : database.update limit update = .ok outcome) (hchild : child ≠ update.table)
    (hforeign : foreignKey ∈ database.foreignKeys child) :
    database.RowsFollow (outcome.snapshot database) child foreignKey := by
  have hlisted := hreachable.listed
  have hbuilt := hreachable.wellBuilt
  obtain ⟨_, changes, count, -, -, -, hchanges, hpublish⟩ := of_update_eq_ok hlisted hupdate
  obtain ⟨revisions, after, h, hafter⟩ := exists_updateRun hchanges hpublish
  obtain ⟨changed, hrevised⟩ := h.revisedOnce hlisted hbuilt hsingle foreignKey.refTable
  rw [← hafter] at hrevised
  have hparents := (hsingle.key child foreignKey hforeign).parentsRevised hbuilt hreachable.keysHold
    (hreachable.keysHold.update hchanges hpublish) (schemas_of_publish hpublish) hrevised
    fun _ _ => trivial
  have hpath := solePath_of_single revisions hsingle hforeign
  have hreference : ∀ {row row' : Row}, AgreeOn (fun _ => True) row' row →
      AgreeOn (· ∈ foreignKey.columns) row' row := fun hrow => hrow.mono fun _ _ => trivial
  constructor
  · intro position place row parent hrow hparent href
    obtain ⟨row', hrow', hmove⟩ := h.exists_moved hchild hpath rfl hparents.rekeys_eq hrow
    obtain ⟨parent', hparent'⟩ := hparents.exists_parent hparent
    rw [hafter child]
    refine ⟨row', parent', hrow', hparent', hparents.follows child (hbuilt.paired hforeign) hparent hparent'
      href (hreference hmove) fun haction => ?_⟩
    refine h.trace.not_concerns_of_solePath hpath rfl hparents.rekeys_eq haction row ?_
    rw [startOf_rows_of_ne hchild]
    exact List.mem_of_getElem? hrow
  · intro position row hrow hnull
    obtain ⟨row', hrow', hmove⟩ := h.exists_moved hchild hpath rfl hparents.rekeys_eq hrow
    rw [Question.move_of_reference_none (by simp [reference?, hnull])] at hmove
    rw [hafter]
    exact ⟨row', hrow', hreference hmove⟩

def ladderTexts : List (Int × Text) :=
  [(64, "CREATE TABLE a(id INT PRIMARY KEY)"),
    (64, "CREATE TABLE b(id INT PRIMARY KEY REFERENCES a(id) ON UPDATE CASCADE)"),
    (64, "INSERT INTO a VALUES (1), (2)"),
    (64, "INSERT INTO b VALUES (1), (2)")]

def ladder : Database :=
  let id : Column := ⟨"id", .int, false, false, false⟩
  let rows : List Row := [.ofList [("id", .int 1)], .ofList [("id", .int 2)]]
  ⟨"b",
    .ofList [
      ("a", ⟨"a", [id], ["id"], [], [], .column, false⟩),
      ("b", ⟨"b", [id], ["id"], [], [⟨["id"], "a", ["id"], .restrict, .cascade, none⟩], .column, false⟩)],
    .ofList [("a", rows), ("b", rows)]⟩

set_option maxRecDepth 20000 in
theorem ladder_reachable : ladder.Reachable :=
  ⟨ladderTexts, by decide +kernel⟩

def exchange (table : Text) : Update :=
  ⟨table, [⟨"id", .arithmetic (.literal (.int 3)) .subtract (.column "id")⟩], none⟩

theorem ladder_singleReferences : ladder.SingleReferences := by
  have honly : ∀ table ∈ ladder.tableNames, ∀ foreignKey ∈ ladder.foreignKeys table,
      foreignKey = ⟨["id"], "a", ["id"], .restrict, .cascade, none⟩ := by decide +kernel
  refine ⟨fun table => ?_, forall_foreignKeys_iff.mpr (by decide +kernel),
    forall_foreignKeys_iff.mpr fun table hmem foreignKey hforeign => ?_⟩
  · by_cases hmem : table ∈ ladder.tableNames
    · exact (by decide +kernel : ∀ table ∈ ladder.tableNames, (ladder.foreignKeys table).length ≤ 1)
        table hmem
    · rw [foreignKeys_eq_nil hmem]
      exact Nat.zero_le 1
  · rw [honly table hmem foreignKey hforeign]
    exact ⟨_, rfl, rfl, fun _ => Iff.rfl⟩

theorem rows_follow_exchange : ∃ outcome, ladder.update 64 (exchange "a") = .ok outcome ∧
    ladder.RowsFollow (outcome.snapshot ladder) "b" ⟨["id"], "a", ["id"], .restrict, .cascade, none⟩ := by
  have hok : (ladder.update 64 (exchange "a")).isOk = true := by decide +kernel
  obtain ⟨outcome, h⟩ := Check.exists_of_isOk hok
  exact ⟨outcome, h, rows_follow ladder_reachable ladder_singleReferences h (by decide +kernel)
    (by decide +kernel)⟩

end Database

end SnapshotSql
