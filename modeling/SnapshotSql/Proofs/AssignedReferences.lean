import SnapshotSql.Proofs.TypedRows
import SnapshotSql.Proofs.UpdateRuns
import Mathlib.Data.List.Induction

/-! # References of a table to itself that an UPDATE assigns

The rows that an UPDATE names are replaced before the references to their old keys follow, also those of
the table itself. So a reference that has just been assigned is taken for one to an old key if the two
are equal, and it is rewritten to the new key of the row that held the old one. An assigned value stays
exactly if this does not change it.
-/
namespace SnapshotSql

namespace Integrity

open Row (AgreeOn)

variable {database : Database} {target : Text} {changes : List Change} {revisions : List Revision}
  {after : Scratch} {foreignKey : ForeignKey}

/-- A foreign key of a table to itself that cascades updates. -/
structure SelfReference (database : Database) (table : Text) (foreignKey : ForeignKey) : Prop where
  mem : foreignKey ∈ database.foreignKeys table
  refTable_eq : foreignKey.refTable = table
  cascade : foreignKey.onUpdate = .cascade

/-- No other reference of the table to itself has columns of this one, and none has columns that it
refers to. -/
structure SelfAlone (database : Database) (table : Text) (foreignKey : ForeignKey) : Prop where
  once : (database.foreignKeys table).count foreignKey = 1
  columns : ∀ other ∈ database.foreignKeys table, other.refTable = table → other ≠ foreignKey →
    ∀ column ∈ other.columns, column ∉ foreignKey.columns
  keys : ∀ other ∈ database.foreignKeys table, other.refTable = table →
    ∀ column ∈ other.columns, column ∉ foreignKey.refColumns

/-- A replaced row follows the first revision only. -/
theorem UpdateRun.exists_moved_target (h : UpdateRun database target changes revisions after)
    (hlisted : database.Listed) (hbuilt : database.WellBuilt)
    (hself : SelfReference database target foreignKey) (halone : SelfAlone database target foreignKey)
    {change : Change} (hchange : change ∈ changes) :
    ∃ row', (Staging.rowsIn database after target)[change.position]? = some row' ∧
      AgreeOn (· ∈ foreignKey.columns) row'
        (Question.move ⟨⟨target, changes.map Change.rows⟩, target, foreignKey⟩ change.after) := by
  have honce := (h.revisedOnce_target hlisted hbuilt halone.keys).rekeys foreignKey hself.refTable_eq
    fun _ hmem => hmem
  have hpath : SolePath database revisions target foreignKey (· ∈ foreignKey.columns) := by
    refine ⟨halone.once, fun _ hmem => hmem, fun other hother hne => ?_⟩
    by_cases heq : other.refTable = target
    · exact Or.inl (halone.columns other hother heq hne)
    · exact Or.inr (filter_rekeys_of_ne (h.table_ne_of_ne_target hlisted hbuilt hother heq))
  refine ⟨_, ?_, hpath.agreeOn_moves hself.refTable_eq.symm honce change.after⟩
  rw [h.rows_eq, List.getElem?_map, startOf_rows, getElem?_replaceAt_of_mem h.changesOf hchange]
  rfl

/-! ## Assigned references that are taken for old ones -/

/-- The last row that an UPDATE changes whose old key a row refers to, if its key is not kept. -/
def mistaken? (foreignKey : ForeignKey) (changes : List Change) (row : Row) : Option Change :=
  changes.reverse.find? fun change =>
    decide (Refers foreignKey row change.before ∧ ¬ KeyKept foreignKey change.before change.after)

/-- The last change comes first among the changed keys. -/
theorem changedKeys_concat (changes : List (Row × Row)) (before after : Row) :
    changedKeys foreignKey (changes ++ [(before, after)]) =
      (if Key.hasNull (before.values foreignKey.refColumns) = false ∧ ¬ KeyKept foreignKey before after then
        [(Key.ofValues (before.values foreignKey.refColumns), after.values foreignKey.refColumns)]
      else []) ++ changedKeys foreignKey changes := by
  simp only [changedKeys, List.filterMap_append, List.reverse_append, List.filterMap_cons,
    List.filterMap_nil, KeyKept, eq_comm (a := Key.ofValues (after.values foreignKey.refColumns))]
  congr 1
  cases Key.hasNull (before.values foreignKey.refColumns)
  · by_cases hkept : Key.ofValues (before.values foreignKey.refColumns) =
        Key.ofValues (after.values foreignKey.refColumns)
    · simp [hkept]
    · simp [hkept]
  · simp

/-- The values that are looked up under the key of an assigned reference. -/
theorem lookup_changedKeys_eq {row : Row} {key : Text} (href : reference? foreignKey row = some key)
    (changes : List Change) :
    (changedKeys foreignKey (changes.map Change.rows)).lookup key =
      (mistaken? foreignKey changes row).map (·.after.values foreignKey.refColumns) := by
  induction changes using List.reverseRecOn with
  | nil => rfl
  | append_singleton changes change ih =>
    rw [List.map_append, List.map_singleton, Change.rows, changedKeys_concat, mistaken?,
      List.reverse_append, List.reverse_singleton, List.singleton_append]
    rw [mistaken?] at ih
    by_cases hmistaken : Refers foreignKey row change.before ∧
        ¬ KeyKept foreignKey change.before change.after
    · obtain ⟨hrefers, hchanged⟩ := hmistaken
      have hkey : key = Key.ofValues (change.before.values foreignKey.refColumns) :=
        Option.some.inj (href.symm.trans hrefers)
      rw [if_pos ⟨complete_of_reference hrefers _ rfl, hchanged⟩, List.singleton_append,
        OrderedMap.lookup_cons_eq, if_pos hkey, List.find?_cons_of_pos (by simpa using ⟨hrefers, hchanged⟩),
        Option.map_some]
    · rw [List.find?_cons_of_neg (by simpa using hmistaken), ← ih]
      split
      · next hchanged =>
        rw [List.singleton_append, OrderedMap.lookup_cons_eq, if_neg]
        intro hkey
        exact hmistaken ⟨href.trans (congrArg some hkey), hchanged.2⟩
      · rfl

/-- A row moves with the first revision exactly if it is mistaken. -/
theorem concerns_eq_mistaken (foreignKey : ForeignKey) (changes : List Change) (row : Row) :
    Question.concerns ⟨⟨target, changes.map Change.rows⟩, target, foreignKey⟩ row =
      (mistaken? foreignKey changes row).isSome := by
  cases href : reference? foreignKey row with
  | none => simp [Question.concerns, mistaken?, Refers, href]
  | some key =>
    rw [Question.concerns_eq_isSome ⟨⟨target, changes.map Change.rows⟩, target, foreignKey⟩ href,
      Question.keys, lookup_changedKeys_eq href, Option.isSome_map]

/-- What a column of the reference holds after an assigned row has followed the first revision. -/
theorem get?_move_assigned (hself : SelfReference database target foreignKey)
    (hpaired : Paired foreignKey) (changes : List Change) (row : Row) {column refColumn : Text}
    (hmem : (column, refColumn) ∈ foreignKey.columns.zip foreignKey.refColumns) :
    (Question.move ⟨⟨target, changes.map Change.rows⟩, target, foreignKey⟩ row).get? column =
      match mistaken? foreignKey changes row with
      | some change => some (change.after.value refColumn)
      | none => row.get? column := by
  rw [Question.move, concerns_eq_mistaken]
  cases hmistaken : mistaken? foreignKey changes row with
  | none => rfl
  | some change =>
    have hrefers : Refers foreignKey row change.before := by
      have hfound := List.find?_some hmistaken
      exact (of_decide_eq_true hfound).1
    have hlookup := lookup_changedKeys_eq hrefers changes
    rw [Refers] at hrefers
    rw [Option.isSome_some, if_pos rfl, followKey, if_pos hself.cascade]
    simp only [hrefers, Option.bind_some, Question.keys, hlookup, hmistaken, Option.map_some]
    exact get?_withReference hpaired row change.after hmem

/-! ## Tables in which nothing is mistaken -/

/-- A step that finds no row to move leaves a table and its revisions alone. -/
theorem UpdateStep.kept_of_not_concerns (target : Text) {before middle : Revising} {question : Question Revision}
    (h : UpdateStep database before question middle)
    (hidle : question.child = target → ∀ row ∈ before.rows database target, ¬ question.concerns row = true) :
    middle.rows database target = before.rows database target ∧
      ∀ revision ∈ middle.revisions, revision.table = target → revision ∈ before.revisions := by
  by_cases hchild : question.child = target
  · subst hchild
    have hidle := hidle rfl
    have hnone : question.revisions (before.rows database question.child) = [] := by
      rw [Question.revisions, List.filter_eq_nil_iff.mpr hidle]
    rw [h.rows_eq, h.revisions_eq, hnone, List.append_nil]
    refine ⟨?_, fun _ hmem _ => hmem⟩
    refine (List.map_congr_left fun row hrow => ?_).trans (List.map_id _)
    rw [Question.moveIn, if_pos rfl, Question.move, if_neg (hidle row hrow), id]
  · rw [h.rows_eq, map_moveIn_of_ne hchild, h.revisions_eq]
    refine ⟨rfl, fun revision hrevision htable => ?_⟩
    rcases List.mem_append.mp hrevision with hold | hnew
    · exact hold
    · exact absurd ((Question.table_of_mem_revisions hnew).symm.trans htable) hchild

/-- If no replaced row refers to an old key, the table keeps the replaced rows. -/
theorem UpdateRun.rows_of_not_mistaken (h : UpdateRun database target changes revisions after)
    (hlisted : database.Listed) (hbuilt : database.WellBuilt)
    (hnone : ∀ other ∈ database.foreignKeys target, other.refTable = target →
      ∀ row ∈ (startOf database target changes).rows database target, mistaken? other changes row = none) :
    Staging.rowsIn database after target = (startOf database target changes).rows database target := by
  -- the first revision stays the only one of the table, so all questions to it are about that one
  have htrace : ∀ {first last : Revising} {questions : List (Question Revision)},
      UpdateTrace database first questions last →
      (∀ question ∈ questions, question.child = target → question.foreignKey.refTable = target) →
      first.rows database target = (startOf database target changes).rows database target →
      (∀ revision ∈ first.revisions, revision.table = target →
        revision = ⟨target, changes.map Change.rows⟩) →
      last.rows database target = (startOf database target changes).rows database target := by
    intro first last questions htrace
    induction htrace with
    | nil state => exact fun _ hrows _ => hrows
    | @cons before middle last question questions hstep hrest ih =>
      intro hquestions hrows hrevisions
      obtain ⟨hquestion, hquestions⟩ := List.forall_mem_cons.mp hquestions
      have hidle : question.child = target → ∀ row ∈ before.rows database target,
          ¬ question.concerns row = true := by
        intro hchild row hrow hconcerns
        have htable := hquestion hchild
        have habout := hrevisions question.about hstep.revision_mem (hstep.refTable_eq ▸ htable)
        have hforeign := hstep.foreignKey_mem
        obtain ⟨about, child, foreignKey⟩ := question
        dsimp only at hchild htable habout hforeign
        subst hchild habout
        rw [concerns_eq_mistaken, hnone foreignKey hforeign htable row (hrows ▸ hrow)] at hconcerns
        cases hconcerns
      obtain ⟨hkept, hfew⟩ := hstep.kept_of_not_concerns target hidle
      exact ih hquestions (hkept.trans hrows) fun revision hmem htable =>
        hrevisions revision (hfew revision hmem htable) htable
  refine htrace h.trace (fun question hquestion => h.refTable_eq_target hlisted hbuilt hquestion) rfl ?_
  exact List.forall_mem_singleton.mpr fun _ => rfl

end Integrity

namespace Database

open Integrity
open Row (AgreeOn)

variable {database : Database} {limit : Int} {update : Update} {outcome : Outcome}
  {schema : TableSchema} {foreignKey : ForeignKey}

theorem exists_assigned_column {name : Text} {expression : SetExpression}
    (hcolumns : ∀ assignment ∈ update.assignments, assignment.column ∈ schema.columnNames)
    (hexpression : update.assigned? name = some expression) :
    ∃ column ∈ schema.columns, column.name = name := by
  obtain ⟨assignment, hfound, -⟩ := Option.map_eq_some_iff.mp hexpression
  have hassigned := hcolumns assignment (List.mem_reverse.mp (List.mem_of_find?_eq_some hfound))
  have heq : assignment.column = name := by simpa using List.find?_some hfound
  exact List.mem_map.mp (heq ▸ hassigned)

/-- A column of a reference of a table to itself holds the value assigned to it after an UPDATE if no
replaced row is mistaken for one that refers to an old key. Where the reference is alone, it does exactly
if its own row is not mistaken or the new key is the assigned one. -/
theorem assigned_after_iff (hreachable : database.Reachable)
    (hschema : database.schemas.get? update.table = some schema) (hview : schema.isView = false)
    (hself : SelfReference database update.table foreignKey)
    (hupdate : database.update limit update = .ok outcome) {name : Text}
    (hname : name ∈ foreignKey.columns) {expression : SetExpression}
    (hexpression : update.assigned? name = some expression) {position : Nat} {row : Row}
    (hrow : (database.tableRows update.table)[position]? = some row)
    (hnamed : update.condition.all (·.holds row) = true) :
    ∃ column refColumn changes assigned value row', column ∈ schema.columns ∧ column.name = name ∧
      (name, refColumn) ∈ foreignKey.columns.zip foreignKey.refColumns ∧
      changesFrom schema update 0 (database.tableRows update.table) = .ok changes ∧
      assign schema update.assignments row = .ok assigned ∧
      (expression.value row).castTo column.type = .ok value ∧
      ((outcome.snapshot database).tableRows update.table)[position]? = some row' ∧
      ((∀ other ∈ database.foreignKeys update.table, other.refTable = update.table →
          ∀ replaced ∈ replaceAt (database.tableRows update.table)
            (changes.map fun change => (change.position, change.after)),
            mistaken? other changes replaced = none) → row'.get? name = some value) ∧
      (SelfAlone database update.table foreignKey → (row'.get? name = some value ↔
        ∀ change, mistaken? foreignKey changes assigned = some change →
          change.after.value refColumn = value)) := by
  have hlisted := hreachable.listed
  have hbuilt := hreachable.wellBuilt
  have hpaired := hbuilt.paired hself.mem
  obtain ⟨declared, changes, count, hdeclared, hcolumns, hfrom, hchanges, hpublish⟩ :=
    of_update_eq_ok hlisted hupdate
  cases hdeclared.symm.trans hschema
  obtain ⟨revisions, after, h, hafter⟩ := exists_updateRun hchanges hpublish
  obtain ⟨column, hcolumn, rfl⟩ := exists_assigned_column hcolumns hexpression
  obtain ⟨refColumn, hmem⟩ := hpaired.exists_refColumn hname
  obtain ⟨change, hchange, hposition, rfl⟩ := exists_mem_changesFrom hfrom hrow hnamed
  obtain ⟨-, hassign⟩ := assign_of_mem_changesFrom hfrom hchange
  obtain ⟨value, hvalue, hassigned⟩ :=
    get?_assign hassign ((hbuilt.schema _ schema hschema).names hview) hcolumn hexpression
  have hreplaced := getElem?_replaceAt_of_mem hchanges hchange
  rw [hposition, Nat.zero_add] at hreplaced
  obtain ⟨row', hrow'⟩ : ∃ row', ((outcome.snapshot database).tableRows update.table)[position]? =
      some row' := by
    rw [hafter, h.rows_eq, List.getElem?_map, startOf_rows, hreplaced]
    exact ⟨_, rfl⟩
  refine ⟨column, refColumn, changes, change.after, value, row', hcolumn, rfl, hmem, hfrom, hassign,
    hvalue, hrow', fun hnone => ?_, fun halone => ?_⟩
  · have hkept := h.rows_of_not_mistaken hlisted hbuilt (by rwa [startOf_rows])
    rw [hafter, hkept, startOf_rows, hreplaced] at hrow'
    cases hrow'
    exact hassigned
  · obtain ⟨moved, hmoved, hmove⟩ := h.exists_moved_target hlisted hbuilt hself halone hchange
    rw [hposition, Nat.zero_add, ← hafter] at hmoved
    cases hmoved.symm.trans hrow'
    rw [hmove column.name hname, get?_move_assigned hself hpaired changes change.after hmem]
    cases mistaken? foreignKey changes change.after with
    | none => simp [hassigned]
    | some other => simp

def nodesTexts : List (Int × Text) :=
  [(64, "CREATE TABLE node(id INT PRIMARY KEY, boss INT REFERENCES node(id) ON UPDATE CASCADE)"),
    (64, "INSERT INTO node VALUES (1, NULL), (2, NULL)")]

def toBoss : ForeignKey :=
  ⟨["boss"], "node", ["id"], .restrict, .cascade, none⟩

def nodesSchema : TableSchema :=
  ⟨"node", [⟨"id", .int, false, false, false⟩, ⟨"boss", .int, false, false, false⟩], ["id"], [],
    [toBoss], .column, false⟩

def nodes : Database :=
  ⟨"node", .ofList [("node", nodesSchema)],
    .ofList [("node", [.ofList [("id", .int 1), ("boss", .null)],
      .ofList [("id", .int 2), ("boss", .null)]])]⟩

set_option maxRecDepth 20000 in
theorem nodes_reachable : nodes.Reachable :=
  ⟨nodesTexts, by decide +kernel⟩

/-- Exchanges the keys 1 and 2 and makes 1 the boss of all nodes. -/
def promote : Update :=
  ⟨"node", [⟨"id", .arithmetic (.literal (.int 3)) .subtract (.column "id")⟩,
    ⟨"boss", .operand (.literal (.int 1))⟩], none⟩

theorem nodes_selfReference : SelfReference nodes "node" toBoss :=
  ⟨by decide +kernel, rfl, rfl⟩

theorem nodes_selfAlone : SelfAlone nodes "node" toBoss :=
  ⟨by decide +kernel, by decide +kernel, by decide +kernel⟩

theorem assigned_after_iff_nodes : ∃ outcome column refColumn changes assigned value row',
    nodes.update 64 promote = .ok outcome ∧ column ∈ nodesSchema.columns ∧ column.name = "boss" ∧
      (("boss" : Text), refColumn) ∈ toBoss.columns.zip toBoss.refColumns ∧
      changesFrom nodesSchema promote 0 (nodes.tableRows "node") = .ok changes ∧
      assign nodesSchema promote.assignments (.ofList [("id", .int 1), ("boss", .null)]) = .ok assigned ∧
      (Scalar.int 1).castTo column.type = .ok value ∧
      ((outcome.snapshot nodes).tableRows "node")[0]? = some row' ∧
      (row'.get? "boss" = some value ↔ ∀ change, mistaken? toBoss changes assigned = some change →
        change.after.value refColumn = value) := by
  have hok : (nodes.update 64 promote).isOk = true := by decide +kernel
  obtain ⟨outcome, h⟩ := Check.exists_of_isOk hok
  obtain ⟨column, refColumn, changes, assigned, value, row', hcolumn, hname, hmem, hfrom, hassign, hvalue,
    hrow', -, hiff⟩ := assigned_after_iff nodes_reachable
    (rfl : nodes.schemas.get? promote.table = some nodesSchema) rfl nodes_selfReference h
    (by decide +kernel : ("boss" : Text) ∈ toBoss.columns)
    (rfl : promote.assigned? "boss" = some (.operand (.literal (.int 1))))
    (rfl : (nodes.tableRows "node")[0]? = some (.ofList [("id", .int 1), ("boss", .null)])) rfl
  exact ⟨outcome, column, refColumn, changes, assigned, value, row', h, hcolumn, hname, hmem, hfrom, hassign,
    hvalue, hrow', hiff nodes_selfAlone⟩

/-- It is not so that an assigned reference of a table to itself always holds the assigned value. -/
theorem not_assigned_after_every_update : ¬ ∀ (database : Database) (limit : Int) (update : Update)
    (outcome : Outcome) (schema : TableSchema) (foreignKey : ForeignKey), database.Reachable →
      database.schemas.get? update.table = some schema → schema.isView = false →
      SelfReference database update.table foreignKey → database.update limit update = .ok outcome →
      ∀ (column : Column) (expression : SetExpression) (position : Nat) (row row' : Row) (value : Scalar),
        column ∈ schema.columns → column.name ∈ foreignKey.columns →
        update.assigned? column.name = some expression →
        (database.tableRows update.table)[position]? = some row →
        update.condition.all (·.holds row) = true →
        ((outcome.snapshot database).tableRows update.table)[position]? = some row' →
        (expression.value row).castTo column.type = .ok value → row'.get? column.name = some value := by
  intro hevery
  have hok : (nodes.update 64 promote).isOk = true := by decide +kernel
  obtain ⟨outcome, h⟩ := Check.exists_of_isOk hok
  have hrows : (nodes.update 64 promote).toOption.map (fun outcome =>
      ((outcome.snapshot nodes).tableRows "node")[0]?) =
      some (some (.ofList [("id", .int 2), ("boss", .int 2)])) := by decide +kernel
  simp only [h, Except.toOption, Option.map_some, Option.some.injEq] at hrows
  have hholds := hevery nodes 64 promote outcome nodesSchema toBoss nodes_reachable rfl rfl
    nodes_selfReference h ⟨"boss", .int, false, false, false⟩ (.operand (.literal (.int 1))) 0 _ _ (.int 1)
    (by decide) (by decide) rfl rfl rfl hrows rfl
  exact absurd hholds (by decide)

end Database

end SnapshotSql
