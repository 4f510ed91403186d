import SnapshotSql.Proofs.UpdateEffects

/-! # What the questions of an UPDATE do to a row

A question moves every row of its table on its own: a row that refers to a key that changes follows it,
and any other stays. So an UPDATE takes each row through the moves of all questions, in their order.
Which of them matter is told column by column: a question without keys, or one whose foreign key has
none of the columns, leaves them as they are.
-/
namespace SnapshotSql

/-! ## Rows that agree -/

def Row.AgreeOn (columns : Text → Prop) (row other : Row) : Prop :=
  ∀ column, columns column → row.get? column = other.get? column

namespace Row.AgreeOn

variable {columns : Text → Prop} {row other third : Row}

theorem refl (row : Row) : AgreeOn columns row row :=
  fun _ _ => rfl

theorem symm (h : AgreeOn columns row other) : AgreeOn columns other row :=
  fun column hcolumn => (h column hcolumn).symm

theorem trans (h : AgreeOn columns row other) (h' : AgreeOn columns other third) :
    AgreeOn columns row third :=
  fun column hcolumn => (h column hcolumn).trans (h' column hcolumn)

theorem mono (h : AgreeOn columns row other) {fewer : Text → Prop}
    (hfewer : ∀ column, fewer column → columns column) : AgreeOn fewer row other :=
  fun column hcolumn => h column (hfewer column hcolumn)

theorem value (h : AgreeOn columns row other) {column : Text} (hcolumn : columns column) :
    row.value column = other.value column := by
  rw [Row.value, Row.value, h column hcolumn]

theorem values (h : AgreeOn columns row other) {names : List Text} (hnames : ∀ name ∈ names, columns name) :
    row.values names = other.values names :=
  List.map_congr_left fun name hname => h.value (hnames name hname)

theorem insert (h : AgreeOn columns row other) (name : Text) (value : Scalar) :
    AgreeOn columns (row.insert name value) (other.insert name value) := by
  intro column hcolumn
  rw [OrderedMap.get?_insert, OrderedMap.get?_insert, h column hcolumn]

theorem foldl_insert (h : AgreeOn columns row other) (entries : List (Text × Scalar)) :
    AgreeOn columns (entries.foldl (fun row entry => row.insert entry.1 entry.2) row)
      (entries.foldl (fun row entry => row.insert entry.1 entry.2) other) := by
  induction entries generalizing row other with
  | nil => exact h
  | cons entry entries ih => exact ih (h.insert entry.1 entry.2)

end Row.AgreeOn

/-- The columns of a foreign key are different, and as many as those that it refers to. -/
def Integrity.Paired (foreignKey : ForeignKey) : Prop :=
  foreignKey.columns.Nodup ∧ foreignKey.columns.length = foreignKey.refColumns.length

/-- CREATE TABLE has seen to it that foreign keys are paired. -/
theorem Database.WellBuilt.paired {database : Database} (h : database.WellBuilt) {table : Text}
    {foreignKey : ForeignKey} (hforeign : foreignKey ∈ database.foreignKeys table) :
    Integrity.Paired foreignKey := by
  obtain ⟨schema, hschema, hdeclared⟩ := (mem_foreignKeys ..).mp hforeign
  exact (h.schema table schema hschema).paired foreignKey hdeclared

namespace Integrity

open Row (AgreeOn)

variable {database : Database} {columns : Text → Prop} {table : Text} {row other : Row}
  {foreignKey : ForeignKey} {keys : List (Text × List Scalar)}

/-! ## Rows that follow a key -/

theorem mem_zip_columns {position : Nat} (hcolumn : position < foreignKey.columns.length)
    (hrefColumn : position < foreignKey.refColumns.length) :
    (foreignKey.columns[position], foreignKey.refColumns[position]) ∈
      foreignKey.columns.zip foreignKey.refColumns := by
  rw [← List.getElem_zip (h := by rw [List.length_zip]; omega)]
  exact List.getElem_mem _

theorem Paired.exists_refColumn (h : Paired foreignKey) {column : Text}
    (hcolumn : column ∈ foreignKey.columns) :
    ∃ refColumn, (column, refColumn) ∈ foreignKey.columns.zip foreignKey.refColumns := by
  obtain ⟨position, hposition, rfl⟩ := List.getElem_of_mem hcolumn
  exact ⟨_, mem_zip_columns hposition (h.2 ▸ hposition)⟩

/-- A row that takes over the values of a parent holds each of them under the column that refers to it. -/
theorem get?_withReference (h : Paired foreignKey) (row parent : Row) {column refColumn : Text}
    (hmem : (column, refColumn) ∈ foreignKey.columns.zip foreignKey.refColumns) :
    (withReference foreignKey (parent.values foreignKey.refColumns) row).get? column =
      some (parent.value refColumn) := by
  have hnames : ((foreignKey.columns.zip (parent.values foreignKey.refColumns)).map (·.1)).Nodup := by
    rw [List.map_fst_zip (by simpa [Row.values] using Nat.le_of_eq h.2)]
    exact h.1
  have hvalue : (column, parent.value refColumn) ∈
      foreignKey.columns.zip (parent.values foreignKey.refColumns) := by
    rw [Row.values, List.zip_map_right]
    exact List.mem_map.mpr ⟨_, hmem, rfl⟩
  have hlookup := (OrderedMap.mem_entries_iff ⟨_, hnames⟩ column _).mp hvalue
  rw [withReference, OrderedMap.get?_foldl_insert _ _ _ hnames]
  simp only [OrderedMap.get?] at hlookup
  rw [hlookup, Option.some_or]

theorem values_withReference (h : Paired foreignKey) (row parent : Row) :
    (withReference foreignKey (parent.values foreignKey.refColumns) row).values foreignKey.columns =
      parent.values foreignKey.refColumns := by
  refine List.ext_getElem (by simpa [Row.values] using h.2) fun position hcolumn hvalue => ?_
  simp only [Row.values, List.length_map] at hcolumn hvalue
  have hget := congrArg (·.getD .null)
    (get?_withReference h row parent (mem_zip_columns hcolumn hvalue))
  simpa only [Row.values, List.getElem_map, Row.value, Option.getD_some] using hget

/-- A row that follows a key changes under the columns of the foreign key only. -/
theorem agreeOn_followKey (hcolumns : ∀ column ∈ foreignKey.columns, ¬ columns column) :
    AgreeOn columns (followKey foreignKey keys row) row := by
  have hinsert : ∀ entries : List (Text × Scalar), (∀ entry ∈ entries, entry.1 ∈ foreignKey.columns) →
      AgreeOn columns (entries.foldl (fun row entry => row.insert entry.1 entry.2) row) row := by
    intro entries hentries
    induction entries generalizing row with
    | nil => exact AgreeOn.refl row
    | cons entry entries ih =>
      obtain ⟨hentry, hentries⟩ := List.forall_mem_cons.mp hentries
      refine AgreeOn.trans (ih hentries) fun column hcolumn => ?_
      rw [OrderedMap.get?_insert, if_neg]
      rintro rfl
      exact hcolumns entry.1 hentry hcolumn
  unfold followKey
  split
  · split
    · exact hinsert _ fun entry hentry => (List.of_mem_zip hentry).1
    · exact AgreeOn.refl row
  · intro column hcolumn
    rw [get?_nullOut, if_neg fun hmem => hcolumns column hmem hcolumn]

/-- Rows that agree on the reference and more follow a key alike. -/
theorem AgreeOn.followKey (h : AgreeOn columns row other)
    (hcolumns : ∀ column ∈ foreignKey.columns, columns column) :
    AgreeOn columns (followKey foreignKey keys row) (followKey foreignKey keys other) := by
  unfold Integrity.followKey
  rw [reference?_congr (h.values hcolumns)]
  split
  · split
    · exact h.foldl_insert _
    · exact h
  · intro column hcolumn
    rw [get?_nullOut, get?_nullOut, h column hcolumn]

/-! ## Moves -/

/-- Whether a row refers to a key that the revision of the question changes. -/
def Question.concerns (question : Question Revision) (row : Row) : Bool :=
  (reference? question.foreignKey row).any (question.keys.map (·.1)).contains

/-- What becomes of a row of the table that a question is asked to. -/
def Question.move (question : Question Revision) (row : Row) : Row :=
  if question.concerns row then followKey question.foreignKey question.keys row else row

def Question.moveIn (table : Text) (question : Question Revision) (row : Row) : Row :=
  if question.child = table then question.move row else row

/-- What becomes of a row of a table by some questions, one after the other. -/
def moves (table : Text) (questions : List (Question Revision)) (row : Row) : Row :=
  questions.foldl (fun row question => question.moveIn table row) row

/-- The revision that a question brings about, given the rows of its table, if one of them moves. -/
def Question.revisions (question : Question Revision) (rows : List Row) : List Revision :=
  match rows.filter question.concerns with
  | [] => []
  | concerned => [⟨question.child, concerned.map fun row => (row, question.move row)⟩]

variable {question : Question Revision} {before after first last : Revising}
  {questions more : List (Question Revision)}

theorem Question.table_of_mem_revisions {rows : List Row} {revision : Revision}
    (h : revision ∈ question.revisions rows) : revision.table = question.child := by
  unfold Question.revisions at h
  split at h
  · cases h
  · rw [List.mem_singleton.mp h]

theorem Question.exists_of_mem_revisions {rows : List Row} {revision : Revision}
    (h : revision ∈ question.revisions rows) {change : Row × Row} (hchange : change ∈ revision.changes) :
    ∃ row ∈ rows, (row, question.move row) = change := by
  unfold Question.revisions at h
  split at h
  · cases h
  · rw [List.mem_singleton.mp h] at hchange
    obtain ⟨row, hrow, rfl⟩ := List.mem_map.mp hchange
    exact ⟨row, (List.mem_filter.mp hrow).1, rfl⟩

theorem Question.concerns_iff : question.concerns row = true ↔
    ∃ key, reference? question.foreignKey row = some key ∧ key ∈ question.keys.map (·.1) := by
  simp only [Question.concerns, Option.any_eq_true, List.contains_iff_mem]

theorem rowsAt_following : rowsAt (before.rows database question.child) (question.following database before) =
    (before.rows database question.child).filter question.concerns := by
  generalize hrows : before.rows database question.child = rows
  have hat : ∀ found : List (Row × Nat), (∀ entry ∈ found, entry ∈ rows.zipIdx) →
      rowsAt rows (found.map (·.2)) = found.map (·.1) := by
    intro found hfound
    rw [rowsAt, List.filterMap_map, ← List.filterMap_eq_map]
    refine List.filterMap_congr fun entry hentry => ?_
    simpa using List.mem_zipIdx_iff_getElem?.mp (hfound entry hentry)
  rw [Question.following, hrows, referringTo, hat _ fun entry hentry => (List.mem_filter.mp hentry).1]
  simp only [List.contains_nil, Bool.not_false, Bool.true_and]
  conv_rhs => rw [← List.zipIdx_map_fst 0 rows, List.filter_map]
  rfl

theorem mem_following {position : Nat} : position ∈ question.following database before ↔
    ∃ row, (before.rows database question.child)[position]? = some row ∧ question.concerns row = true := by
  simp only [Question.following, mem_referringTo, Question.concerns_iff]
  constructor
  · rintro ⟨-, row, key, hrow, href, hkey⟩
    exact ⟨row, hrow, key, href, hkey⟩
  · rintro ⟨row, hrow, key, href, hkey⟩
    exact ⟨List.not_mem_nil, row, key, hrow, href, hkey⟩

theorem following_eq_nil_iff : question.following database before = [] ↔
    (before.rows database question.child).filter question.concerns = [] := by
  constructor
  · intro hnone
    rw [← rowsAt_following, hnone]
    rfl
  · intro hnone
    refine List.eq_nil_iff_forall_not_mem.mpr fun position hposition => ?_
    obtain ⟨row, hrow, hconcerns⟩ := mem_following.mp hposition
    exact List.filter_eq_nil_iff.mp hnone row (List.mem_of_getElem? hrow) hconcerns

theorem changeAt_following :
    changeAt (before.rows database question.child) (question.following database before)
      (followKey question.foreignKey question.keys) =
    (before.rows database question.child).map question.move := by
  refine List.ext_getElem? fun position => ?_
  rw [getElem?_changeAt, List.getElem?_map]
  cases hrow : (before.rows database question.child)[position]? with
  | none => rfl
  | some row =>
    have hmem : position ∈ question.following database before ↔ question.concerns row = true := by
      simp [mem_following, hrow]
    simp only [Option.map_some, hmem, Question.move]

theorem map_moveIn_of_ne (hne : question.child ≠ table) (rows : List Row) :
    rows.map (question.moveIn table) = rows := by
  refine List.map_id'' (fun row => ?_) rows
  rw [Question.moveIn, if_neg hne]

/-- A step moves the rows of its table. -/
theorem UpdateStep.rows_eq (h : UpdateStep database before question after) (table : Text) :
    after.rows database table = (before.rows database table).map (question.moveIn table) := by
  by_cases hchild : question.child = table
  · subst hchild
    have hmove : question.moveIn question.child = question.move := by
      funext row
      rw [Question.moveIn, if_pos rfl]
    rw [hmove]
    cases h.answer with
    | spare hnone =>
      have hidle := List.filter_eq_nil_iff.mp (following_eq_nil_iff.mp hnone)
      refine (List.map_id _).symm.trans (List.map_congr_left fun row hrow => ?_)
      rw [Question.move, if_neg (hidle row hrow), id]
    | follow _ _ =>
      simp only [Revising.rows, Staging.rowsIn_insert, if_true]
      exact changeAt_following
  · rw [map_moveIn_of_ne hchild]
    cases h.answer with
    | spare _ => rfl
    | follow _ _ => simp only [Revising.rows, Staging.rowsIn_insert, if_neg (Ne.symm hchild)]

/-- A step adds the moves that it makes as a revision. -/
theorem UpdateStep.revisions_eq (h : UpdateStep database before question after) :
    after.revisions = before.revisions ++ question.revisions (before.rows database question.child) := by
  cases h.answer with
  | spare hnone => rw [Question.revisions, following_eq_nil_iff.mp hnone, List.append_nil]
  | follow hsome _ =>
    have hmoves : ∀ row ∈ (before.rows database question.child).filter question.concerns,
        (row, followKey question.foreignKey question.keys row) = (row, question.move row) := by
      intro row hrow
      rw [Question.move, if_pos (List.mem_filter.mp hrow).2]
    simp only [rowsAt_following, List.map_congr_left hmoves, Question.revisions]
    split
    · next hnone => exact absurd (following_eq_nil_iff.mpr hnone) hsome
    · rfl

/-- Where updates are restricted no row moves. -/
theorem UpdateStep.not_concerns (h : UpdateStep database before question after)
    (haction : question.foreignKey.onUpdate = .restrict) :
    ∀ row ∈ before.rows database question.child, ¬ question.concerns row = true := by
  cases h.answer with
  | spare hnone => exact List.filter_eq_nil_iff.mp (following_eq_nil_iff.mp hnone)
  | follow _ hnot => exact absurd haction hnot

/-- An UPDATE takes every row through the moves of its questions. -/
theorem UpdateTrace.rows_eq (h : UpdateTrace database first questions last) (table : Text) :
    last.rows database table = (first.rows database table).map (moves table questions) := by
  induction h with
  | nil state => exact (List.map_id _).symm
  | cons hstep _ ih =>
    rw [ih, hstep.rows_eq, List.map_map]
    rfl

/-! ## Questions that leave columns alone -/

/-- A question that changes nothing that the rows of a table hold under some columns. -/
def Question.Idle (table : Text) (columns : Text → Prop) (question : Question Revision) : Prop :=
  question.child = table →
    question.keys = [] ∨ ∀ column ∈ question.foreignKey.columns, ¬ columns column

theorem Question.Idle.moveIn (h : question.Idle table columns) (row : Row) :
    AgreeOn columns (question.moveIn table row) row := by
  unfold Question.moveIn Question.move
  split
  · next hchild =>
    split
    · next hconcerns =>
      rcases h hchild with hnone | hapart
      · obtain ⟨key, -, hkey⟩ := Question.concerns_iff.mp hconcerns
        rw [hnone] at hkey
        cases hkey
      · exact agreeOn_followKey hapart
    · exact AgreeOn.refl row
  · exact AgreeOn.refl row

theorem agreeOn_moves_of_idle (h : ∀ question ∈ questions, question.Idle table columns) (row : Row) :
    AgreeOn columns (moves table questions row) row := by
  induction questions generalizing row with
  | nil => exact AgreeOn.refl row
  | cons question questions ih =>
    obtain ⟨hfirst, hrest⟩ := List.forall_mem_cons.mp h
    exact (ih hrest _).trans (hfirst.moveIn row)

theorem AgreeOn.concerns (h : AgreeOn columns row other)
    (hcolumns : ∀ column ∈ question.foreignKey.columns, columns column) :
    question.concerns row = question.concerns other := by
  rw [Question.concerns, Question.concerns, reference?_congr (h.values hcolumns)]

/-- Rows that agree on the reference and more move alike. -/
theorem AgreeOn.move (h : AgreeOn columns row other)
    (hcolumns : ∀ column ∈ question.foreignKey.columns, columns column) :
    AgreeOn columns (question.move row) (question.move other) := by
  unfold Question.move
  rw [AgreeOn.concerns h hcolumns]
  split
  · exact AgreeOn.followKey h hcolumns
  · exact h

theorem moves_append (table : Text) (questions more : List (Question Revision)) (row : Row) :
    moves table (questions ++ more) row = moves table more (moves table questions row) :=
  List.foldl_append

theorem moves_split (table : Text) (earlier later : List (Question Revision))
    (question : Question Revision) (row : Row) : moves table (earlier ++ question :: later) row =
      moves table later (question.moveIn table (moves table earlier row)) := by
  rw [moves_append]
  rfl

/-- If all questions but one leave the columns alone, that one tells what becomes of them. -/
theorem agreeOn_moves {earlier later : List (Question Revision)}
    (hearlier : ∀ question ∈ earlier, question.Idle table columns)
    (hlater : ∀ question ∈ later, question.Idle table columns) (hchild : question.child = table)
    (hcolumns : ∀ column ∈ question.foreignKey.columns, columns column) (row : Row) :
    AgreeOn columns (moves table (earlier ++ question :: later) row) (question.move row) := by
  rw [moves_split, Question.moveIn, if_pos hchild]
  exact (agreeOn_moves_of_idle hlater _).trans
    (AgreeOn.move (agreeOn_moves_of_idle hearlier row) hcolumns)

end Integrity

end SnapshotSql
