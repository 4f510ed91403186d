import SnapshotSql.Proofs.RowMoves
import SnapshotSql.Proofs.SchemaOrder

/-! # Columns that one revision changes

The keys of a table may change in several revisions of an UPDATE. Where one revision at most changes
them, a foreign key has one question to answer, and the rows that refer to the keys move once: the old
and new keys are those of the rows before and after the UPDATE, place by place. The first revision is
such a one unless the table refers to itself, and then a single foreign key hands this on to its table.
-/
namespace SnapshotSql

namespace Database

theorem count_map_filter (table child name : Text) (foreignKey : ForeignKey)
    (foreignKeys : List ForeignKey) :
    ((foreignKeys.filter (·.refTable = table)).map (name, ·)).count (child, foreignKey) =
      if name = child ∧ foreignKey.refTable = table then foreignKeys.count foreignKey else 0 := by
  induction foreignKeys with
  | nil => simp
  | cons first foreignKeys ih =>
    by_cases hfirst : first.refTable = table
    · rw [List.filter_cons_of_pos (by simpa using hfirst), List.map_cons, List.count_cons, ih,
        List.count_cons]
      by_cases heq : first = foreignKey
      · subst heq
        by_cases hname : name = child <;> simp [hname, hfirst]
      · simp [heq]
    · rw [List.filter_cons_of_neg (by simpa using hfirst), ih, List.count_cons]
      have hne : foreignKey.refTable = table → first ≠ foreignKey := by
        rintro htable rfl
        exact hfirst htable
      split
      · next h => simp [hne h.2]
      · rfl

theorem count_references (table child : Text) (foreignKey : ForeignKey)
    {entries : List (Text × TableSchema)} (hnodup : (entries.map (·.1)).Nodup) :
    (entries.flatMap fun (name, schema) =>
      (schema.foreignKeys.filter (·.refTable = table)).map (name, ·)).count (child, foreignKey) =
    if foreignKey.refTable = table then
      (match entries.lookup child with
        | some schema => schema.foreignKeys
        | none => []).count foreignKey
    else 0 := by
  induction entries with
  | nil => simp
  | cons entry entries ih =>
    obtain ⟨name, schema⟩ := entry
    obtain ⟨hnew, hnodup⟩ := List.nodup_cons.mp hnodup
    rw [List.flatMap_cons, List.count_append, count_map_filter, ih hnodup, OrderedMap.lookup_cons_eq]
    by_cases hname : child = name
    · have hnone : entries.lookup child = none := by
        rw [List.lookup_eq_none_iff]
        intro other hmem
        have hne : child ≠ other.1 := fun heq =>
          hnew (hname ▸ heq ▸ List.mem_map_of_mem (f := (·.1)) hmem)
        simpa using hne
      rw [hnone, if_pos hname]
      simp [hname]
    · rw [if_neg hname, if_neg fun h => hname h.1.symm, Nat.zero_add]

/-- How often a table refers to another by a foreign key. -/
theorem count_referencing (database : Database) (table child : Text) (foreignKey : ForeignKey) :
    (database.referencing table).count (child, foreignKey) =
      if foreignKey.refTable = table then (database.foreignKeys child).count foreignKey else 0 :=
  count_references table child foreignKey database.schemas.nodup

end Database

namespace Integrity

open Row (AgreeOn)

variable {database : Database} {first last : Revising} {questions : List (Question Revision)}
  {question : Question Revision} {revisions : List Revision} {revision : Revision} {table : Text}
  {columns : Text → Prop} {foreignKey : ForeignKey} {changes : List (Row × Row)}

/-! ## Revisions that change keys -/

/-- Whether a revision changes a key that a foreign key refers to. -/
def Revision.rekeys (foreignKey : ForeignKey) (revision : Revision) : Bool :=
  decide (revision.table = foreignKey.refTable) && !(changedKeys foreignKey revision.changes).isEmpty

theorem changedKeys_eq_nil (h : ∀ change ∈ changes, AgreeOn columns change.1 change.2)
    (hcolumns : ∀ column ∈ foreignKey.refColumns, columns column) :
    changedKeys foreignKey changes = [] := by
  refine List.eq_nil_iff_forall_not_mem.mpr fun entry hentry => ?_
  obtain ⟨before, after, hmem, -, hne, -⟩ := mem_changedKeys.mp hentry
  exact hne (by rw [(h _ hmem).values hcolumns])

/-- The revision that an idle question brings about changes no key under the columns. -/
theorem Question.Idle.filter_revisions (h : question.Idle table columns)
    (htable : foreignKey.refTable = table)
    (hcolumns : ∀ column ∈ foreignKey.refColumns, columns column) (rows : List Row) :
    (question.revisions rows).filter (Revision.rekeys foreignKey) = [] := by
  refine List.filter_eq_nil_iff.mpr fun revision hrevision => ?_
  unfold Question.revisions at hrevision
  split at hrevision
  · cases hrevision
  · rw [List.mem_singleton.mp hrevision]
    by_cases hchild : question.child = table
    · suffices hnone : changedKeys foreignKey
          ((rows.filter question.concerns).map fun row => (row, question.move row)) = [] by
        simp [Revision.rekeys, hnone]
      refine changedKeys_eq_nil (fun change hchange => ?_) hcolumns
      obtain ⟨row, -, rfl⟩ := List.mem_map.mp hchange
      have hmove := h.moveIn row
      rw [Question.moveIn, if_pos hchild] at hmove
      exact hmove.symm
    · simp [Revision.rekeys, htable, hchild]

theorem UpdateTrace.rekeys_of_idle (h : UpdateTrace database first questions last)
    (hidle : ∀ question ∈ questions, question.Idle table columns)
    (htable : foreignKey.refTable = table)
    (hcolumns : ∀ column ∈ foreignKey.refColumns, columns column) :
    last.revisions.filter (Revision.rekeys foreignKey) =
      first.revisions.filter (Revision.rekeys foreignKey) := by
  induction h with
  | nil state => rfl
  | cons hstep _ ih =>
    obtain ⟨hone, hrest⟩ := List.forall_mem_cons.mp hidle
    rw [ih hrest, hstep.revisions_eq, List.filter_append, hone.filter_revisions htable hcolumns,
      List.append_nil]

/-- If all revisions leave the keys alone that a foreign key refers to, its questions are idle. -/
theorem idle_of_filter_eq_nil (h : revisions.filter (Revision.rekeys question.foreignKey) = [])
    (hquestion : question ∈ revisions.flatMap (Revision.questions database)) :
    question.Idle table columns := by
  obtain ⟨revision, hrevision, hasked⟩ := List.mem_flatMap.mp hquestion
  obtain ⟨rfl, -, htable⟩ := (mem_questionsAbout ..).mp hasked
  have hkept := List.filter_eq_nil_iff.mp h _ hrevision
  exact fun _ => Or.inl (by simpa [Revision.rekeys, htable, Question.keys] using hkept)

/-! ## The questions of one foreign key -/

/-- Whether a question is put to a foreign key of a table and about keys that change. -/
def Question.putTo (table : Text) (foreignKey : ForeignKey) (question : Question Revision) : Bool :=
  decide (question.child = table ∧ question.foreignKey = foreignKey) && !question.keys.isEmpty

/-- A foreign key is asked about the revisions that change keys it refers to, in their order. -/
theorem filter_questions (hcount : (database.foreignKeys table).count foreignKey = 1)
    (revisions : List Revision) :
    (revisions.flatMap (Revision.questions database)).filter (Question.putTo table foreignKey) =
      (revisions.filter (Revision.rekeys foreignKey)).map (⟨·, table, foreignKey⟩) := by
  induction revisions with
  | nil => rfl
  | cons revision revisions ih =>
    have hput : (Question.putTo table foreignKey ∘ fun reference : Text × ForeignKey =>
        (⟨revision, reference.1, reference.2⟩ : Question Revision)) = fun reference =>
          !(changedKeys foreignKey revision.changes).isEmpty && (reference == (table, foreignKey)) := by
      funext ⟨child, other⟩
      by_cases heq : child = table ∧ other = foreignKey
      · obtain ⟨rfl, rfl⟩ := heq
        simp [Question.putTo, Question.keys]
      · simp [Question.putTo, heq]
    have hone : (revision.questions database).filter (Question.putTo table foreignKey) =
        if revision.rekeys foreignKey then [⟨revision, table, foreignKey⟩] else [] := by
      rw [Revision.questions, questionsAbout, List.filter_map, hput]
      by_cases hkeys : (changedKeys foreignKey revision.changes).isEmpty
      · simp [Revision.rekeys, hkeys]
      · simp only [hkeys, Bool.not_false, Bool.true_and, List.filter_beq, Database.count_referencing,
          hcount, Revision.rekeys, Bool.and_true, decide_eq_true_eq, eq_comm (a := revision.table)]
        split <;> rfl
    rw [List.flatMap_cons, List.filter_append, ih, hone, List.filter_cons]
    split <;> rfl

/-- The only foreign key of a table through which some revisions change the given columns. -/
structure SolePath (database : Database) (revisions : List Revision) (table : Text)
    (foreignKey : ForeignKey) (columns : Text → Prop) : Prop where
  once : (database.foreignKeys table).count foreignKey = 1
  inside : ∀ column ∈ foreignKey.columns, columns column
  others : ∀ other ∈ database.foreignKeys table, other ≠ foreignKey →
    (∀ column ∈ other.columns, ¬ columns column) ∨ revisions.filter (Revision.rekeys other) = []

theorem SolePath.idle (h : SolePath database revisions table foreignKey columns)
    (hquestion : question ∈ revisions.flatMap (Revision.questions database))
    (hput : ¬ question.putTo table foreignKey = true) : question.Idle table columns := by
  intro hchild
  obtain ⟨revision, hrevision, hasked⟩ := List.mem_flatMap.mp hquestion
  obtain ⟨rfl, hforeign, htable⟩ := (mem_questionsAbout ..).mp hasked
  by_cases heq : question.foreignKey = foreignKey
  · exact Or.inl (by simpa [Question.putTo, hchild, heq] using hput)
  · rcases h.others question.foreignKey (hchild ▸ hforeign) heq with hapart | hkept
    · exact Or.inr hapart
    · exact idle_of_filter_eq_nil hkept hquestion hchild

/-- The one question on a sole path, if there is any, and idle ones around it. -/
theorem SolePath.split (h : SolePath database revisions table foreignKey columns)
    (honce : revisions.filter (Revision.rekeys foreignKey) =
      [revision].filter (Revision.rekeys foreignKey)) :
    (revision.rekeys foreignKey = false ∧
      ∀ question ∈ revisions.flatMap (Revision.questions database), question.Idle table columns) ∨
    ∃ earlier later, revisions.flatMap (Revision.questions database) =
        earlier ++ ⟨revision, table, foreignKey⟩ :: later ∧
      (∀ question ∈ earlier, question.Idle table columns) ∧
      ∀ question ∈ later, question.Idle table columns := by
  have hput := filter_questions h.once revisions
  rw [honce, List.filter_singleton] at hput
  cases hrekeys : revision.rekeys foreignKey with
  | false =>
    rw [hrekeys] at hput
    exact Or.inl ⟨rfl, fun question hquestion =>
      h.idle hquestion (List.filter_eq_nil_iff.mp hput question hquestion)⟩
  | true =>
    rw [hrekeys] at hput
    obtain ⟨earlier, later, hsplit, hearlier, -, hlater⟩ := List.filter_eq_cons_iff.mp hput
    have hlater := List.filter_eq_nil_iff.mp hlater
    refine Or.inr ⟨earlier, later, hsplit, fun question hmem => ?_, fun question hmem => ?_⟩
    · exact h.idle (hsplit ▸ List.mem_append_left _ hmem) (hearlier question hmem)
    · exact h.idle (hsplit ▸ List.mem_append_right _ (List.mem_cons_of_mem _ hmem))
        (hlater question hmem)

theorem Question.move_of_reference_none {row : Row} (h : reference? question.foreignKey row = none) :
    question.move row = row := by
  rw [Question.move, if_neg]
  simp [Question.concerns, h]

theorem Question.move_of_keys_nil (h : question.keys = []) (row : Row) : question.move row = row := by
  have hnot : ¬ question.concerns row = true := by
    rw [Question.concerns_iff, h]
    rintro ⟨key, -, hkey⟩
    cases hkey
  rw [Question.move, if_neg hnot]

theorem keys_eq_nil_of_rekeys (htable : revision.table = foreignKey.refTable)
    (h : revision.rekeys foreignKey = false) : changedKeys foreignKey revision.changes = [] := by
  simpa [Revision.rekeys, htable] using h

/-- What becomes of the columns of a row if one foreign key follows one revision. -/
theorem SolePath.agreeOn_moves (h : SolePath database revisions table foreignKey columns)
    (htable : revision.table = foreignKey.refTable)
    (honce : revisions.filter (Revision.rekeys foreignKey) =
      [revision].filter (Revision.rekeys foreignKey)) (row : Row) :
    AgreeOn columns (moves table (revisions.flatMap (Revision.questions database)) row)
      (Question.move ⟨revision, table, foreignKey⟩ row) := by
  rcases h.split honce with ⟨hnone, hidle⟩ | ⟨earlier, later, hsplit, hearlier, hlater⟩
  · rw [Question.move_of_keys_nil (keys_eq_nil_of_rekeys htable hnone)]
    exact agreeOn_moves_of_idle hidle row
  · rw [hsplit]
    exact Integrity.agreeOn_moves hearlier hlater rfl h.inside row

/-! ## Tables that are revised once -/

/-- The rows of a table change under some columns, place by place, by a list of changes, which is the
only revision of keys in these columns. -/
structure RevisedOnce (revisions : List Revision) (table : Text) (columns : Text → Prop)
    (rows others : List Row) (changes : List (Row × Row)) : Prop where
  rekeys : ∀ foreignKey : ForeignKey, foreignKey.refTable = table →
    (∀ column ∈ foreignKey.refColumns, columns column) →
      revisions.filter (Revision.rekeys foreignKey) =
        [⟨table, changes⟩].filter (Revision.rekeys foreignKey)
  length : others.length = rows.length
  sound : ∀ change ∈ changes, ∃ (position : Nat) (row other : Row), rows[position]? = some row ∧
    others[position]? = some other ∧ AgreeOn columns row change.1 ∧ AgreeOn columns other change.2
  complete : ∀ (position : Nat) (row other : Row), rows[position]? = some row →
    others[position]? = some other → AgreeOn columns other row ∨
      ∃ change ∈ changes, AgreeOn columns row change.1 ∧ AgreeOn columns other change.2

theorem RevisedOnce.mono {rows others : List Row} {fewer : Text → Prop}
    (h : RevisedOnce revisions table columns rows others changes)
    (hfewer : ∀ column, fewer column → columns column) :
    RevisedOnce revisions table fewer rows others changes := by
  refine ⟨fun foreignKey htable hcolumns => h.rekeys foreignKey htable fun column hmem =>
    hfewer column (hcolumns column hmem), h.length, fun change hchange => ?_,
    fun position row other hrow hother => ?_⟩
  · obtain ⟨position, row, other, hrow, hother, hbefore, hafter⟩ := h.sound change hchange
    exact ⟨position, row, other, hrow, hother, hbefore.mono hfewer, hafter.mono hfewer⟩
  · rcases h.complete position row other hrow hother with hsame | ⟨change, hchange, hbefore, hafter⟩
    · exact Or.inl (hsame.mono hfewer)
    · exact Or.inr ⟨change, hchange, hbefore.mono hfewer, hafter.mono hfewer⟩

theorem filter_rekeys_nil (table : Text) :
    [(⟨table, []⟩ : Revision)].filter (Revision.rekeys foreignKey) = [] := by
  simp [Revision.rekeys, changedKeys]

theorem filter_rekeys_of_ne (h : ∀ revision ∈ revisions, revision.table ≠ foreignKey.refTable) :
    revisions.filter (Revision.rekeys foreignKey) = [] :=
  List.filter_eq_nil_iff.mpr fun revision hrevision => by simp [Revision.rekeys, h revision hrevision]

/-- A table that all questions leave alone. -/
theorem UpdateTrace.revisedOnce_of_idle (h : UpdateTrace database first questions last)
    (hfirst : ∀ revision ∈ first.revisions, revision.table ≠ table)
    (hidle : ∀ question ∈ questions, question.Idle table columns) :
    RevisedOnce last.revisions table columns (first.rows database table) (last.rows database table)
      [] := by
  rw [h.rows_eq]
  refine ⟨fun foreignKey htable hcolumns => ?_, List.length_map .., nofun,
    fun position row other hrow hother => Or.inl ?_⟩
  · rw [h.rekeys_of_idle hidle htable hcolumns, filter_rekeys_nil,
      filter_rekeys_of_ne (htable ▸ hfirst)]
  · rw [List.getElem?_map, hrow] at hother
    cases hother
    exact agreeOn_moves_of_idle hidle row

def Question.moved (question : Question Revision) (rows : List Row) : List (Row × Row) :=
  (rows.filter question.concerns).map fun row => (row, question.move row)

theorem Question.mem_moved {rows : List Row} {change : Row × Row} : change ∈ question.moved rows ↔
    ∃ row ∈ rows, question.concerns row = true ∧ (row, question.move row) = change := by
  simp only [Question.moved, List.mem_map, List.mem_filter, and_assoc]

theorem Question.filter_revisions (question : Question Revision) (rows : List Row) :
    (question.revisions rows).filter (Revision.rekeys foreignKey) =
      [⟨question.child, question.moved rows⟩].filter (Revision.rekeys foreignKey) := by
  unfold Question.revisions Question.moved
  split
  · next hnone => rw [hnone, List.map_nil, filter_rekeys_nil, List.filter_nil]
  · rfl

/-- A table whose columns follow one revision by a single foreign key. -/
theorem UpdateTrace.revisedOnce_of_solePath
    (h : UpdateTrace database first (revisions.flatMap (Revision.questions database)) last)
    (hrevisions : last.revisions = revisions)
    (hfirst : ∀ revision ∈ first.revisions, revision.table ≠ table)
    (hpath : SolePath database revisions table foreignKey columns)
    (honce : revisions.filter (Revision.rekeys foreignKey) =
      [revision].filter (Revision.rekeys foreignKey)) :
    ∃ changes, RevisedOnce revisions table columns (first.rows database table)
      (last.rows database table) changes := by
  rcases hpath.split honce with ⟨-, hidle⟩ | ⟨earlier, later, hsplit, hearlier, hlater⟩
  · exact ⟨[], hrevisions ▸ h.revisedOnce_of_idle hfirst hidle⟩
  have hrows := h.rows_eq table
  rw [hsplit] at h hrows
  obtain ⟨before, hbefore, hrest⟩ := Trace.of_append h
  have hmoved := UpdateTrace.rows_eq hbefore table
  -- the rows at both ends agree with the rows that the question finds and leaves
  have hfound := agreeOn_moves_of_idle hearlier
  have hleft : ∀ row, AgreeOn columns
      (moves table (earlier ++ ⟨revision, table, foreignKey⟩ :: later) row)
      (Question.move ⟨revision, table, foreignKey⟩ (moves table earlier row)) := by
    intro row
    rw [moves_split, Question.moveIn, if_pos rfl]
    exact agreeOn_moves_of_idle hlater _
  refine ⟨Question.moved ⟨revision, table, foreignKey⟩ (before.rows database table),
    fun other htable hcolumns => ?_, by simp [hrows], fun change hchange => ?_,
    fun position row other hrow hother => ?_⟩
  · cases hrest with
    | cons hstep hafter =>
    rw [← hrevisions, UpdateTrace.rekeys_of_idle hafter hlater htable hcolumns, hstep.revisions_eq,
      List.filter_append, UpdateTrace.rekeys_of_idle hbefore hearlier htable hcolumns,
      filter_rekeys_of_ne (htable ▸ hfirst), List.nil_append, Question.filter_revisions]
  · obtain ⟨found, hmem, -, rfl⟩ := Question.mem_moved.mp hchange
    rw [hmoved] at hmem
    obtain ⟨row, hrow, rfl⟩ := List.mem_map.mp hmem
    obtain ⟨position, hposition⟩ := List.mem_iff_getElem?.mp hrow
    refine ⟨position, row, _, hposition, ?_, (hfound row).symm, hleft row⟩
    rw [hrows, List.getElem?_map, hposition, Option.map_some]
  · rw [hrows, List.getElem?_map, hrow] at hother
    cases hother
    by_cases hconcerns : Question.concerns ⟨revision, table, foreignKey⟩ (moves table earlier row) = true
    · refine Or.inr ⟨_, Question.mem_moved.mpr ⟨moves table earlier row, ?_, hconcerns, rfl⟩,
        (hfound row).symm, hleft row⟩
      rw [hmoved]
      exact List.mem_map_of_mem (List.mem_of_getElem? hrow)
    · have hleft := hleft row
      rw [Question.move, if_neg hconcerns] at hleft
      exact Or.inl (hleft.trans (hfound row))

/-- Where updates are restricted no row refers to a key that changes. -/
theorem UpdateTrace.not_concerns_of_solePath
    (h : UpdateTrace database first (revisions.flatMap (Revision.questions database)) last)
    (hpath : SolePath database revisions table foreignKey columns)
    (htable : revision.table = foreignKey.refTable)
    (honce : revisions.filter (Revision.rekeys foreignKey) =
      [revision].filter (Revision.rekeys foreignKey))
    (haction : foreignKey.onUpdate = .restrict) : ∀ row ∈ first.rows database table,
      ¬ Question.concerns ⟨revision, table, foreignKey⟩ row = true := by
  intro row hrow hconcerns
  rcases hpath.split honce with ⟨hnone, -⟩ | ⟨earlier, later, hsplit, hearlier, -⟩
  · obtain ⟨key, -, hkey⟩ := Question.concerns_iff.mp hconcerns
    rw [Question.keys, keys_eq_nil_of_rekeys htable hnone] at hkey
    cases hkey
  rw [hsplit] at h
  obtain ⟨before, hbefore, hrest⟩ := Trace.of_append h
  cases hrest with
  | cons hstep _ =>
  refine hstep.not_concerns haction (moves table earlier row) ?_ ?_
  · rw [UpdateTrace.rows_eq hbefore]
    exact List.mem_map_of_mem hrow
  · rwa [AgreeOn.concerns (agreeOn_moves_of_idle hearlier row) hpath.inside]

/-! ## Rows that follow a parent -/

/-- No two rows of a table offer the same key. -/
def Determined (foreignKey : ForeignKey) (rows : List Row) : Prop :=
  ∀ key position other, Offers rows foreignKey key position → Offers rows foreignKey key other →
    position = other

def Refers (foreignKey : ForeignKey) (row parent : Row) : Prop :=
  reference? foreignKey row = some (Key.ofValues (parent.values foreignKey.refColumns))

instance (foreignKey : ForeignKey) (row parent : Row) : Decidable (Refers foreignKey row parent) :=
  inferInstanceAs (Decidable (_ = _))

def KeyKept (foreignKey : ForeignKey) (parent parent' : Row) : Prop :=
  Key.ofValues (parent'.values foreignKey.refColumns) =
    Key.ofValues (parent.values foreignKey.refColumns)

instance (foreignKey : ForeignKey) (parent parent' : Row) :
    Decidable (KeyKept foreignKey parent parent') :=
  inferInstanceAs (Decidable (_ = _))

theorem Question.concerns_eq_isSome (question : Question Revision) {row : Row} {key : Text}
    (href : reference? question.foreignKey row = some key) :
    question.concerns row = (question.keys.lookup key).isSome := by
  rw [Bool.eq_iff_iff, Question.concerns_iff, List.lookup_isSome_iff]
  simp [href]

/-- The parents of a foreign key before and after an UPDATE: no two hold the same key, all keys are
complete afterwards, and one revision at most changes them. -/
structure ParentsRevised (revisions : List Revision) (foreignKey : ForeignKey)
    (parents parents' : List Row) (changes : List (Row × Row)) : Prop where
  revised : RevisedOnce revisions foreignKey.refTable (· ∈ foreignKey.refColumns) parents parents' changes
  determined : Determined foreignKey parents
  complete : ∀ parent' ∈ parents', Key.hasNull (parent'.values foreignKey.refColumns) = false

namespace ParentsRevised

variable {parents parents' : List Row} {parent parent' row : Row} {place : Nat}
  (h : ParentsRevised revisions foreignKey parents parents' changes)
include h

theorem rekeys_eq : revisions.filter (Revision.rekeys foreignKey) =
    [⟨foreignKey.refTable, changes⟩].filter (Revision.rekeys foreignKey) :=
  h.revised.rekeys foreignKey rfl fun _ hmem => hmem

theorem exists_parent (hparent : parents[place]? = some parent) :
    ∃ parent', parents'[place]? = some parent' :=
  ⟨_, List.getElem?_eq_getElem (h.revised.length ▸ (List.getElem?_eq_some_iff.mp hparent).1)⟩

/-- A row that moves refers to one of the parents. -/
theorem exists_refers (hconcerns : Question.concerns ⟨⟨foreignKey.refTable, changes⟩, table, foreignKey⟩
    row = true) : ∃ (place : Nat) (parent : Row), parents[place]? = some parent ∧
      Refers foreignKey row parent := by
  obtain ⟨_, href, hkey⟩ := Question.concerns_iff.mp hconcerns
  obtain ⟨before, after, hchange, -, -, rfl⟩ := mem_keys_changedKeys.mp hkey
  obtain ⟨place, parent, _, hparent, -, hbefore, -⟩ := h.revised.sound _ hchange
  refine ⟨place, parent, hparent, ?_⟩
  rw [Refers, href, hbefore.values fun _ hmem => hmem]

variable (hparent : parents[place]? = some parent) (hparent' : parents'[place]? = some parent')
include hparent hparent'

/-- All changes of a key that a parent held are the change of that parent. -/
theorem values_of_mem_changedKeys {values : List Scalar}
    (hmem : (Key.ofValues (parent.values foreignKey.refColumns), values) ∈ changedKeys foreignKey changes) :
    ¬ KeyKept foreignKey parent parent' ∧ values = parent'.values foreignKey.refColumns := by
  obtain ⟨before, after, hchange, -, hne, hkey, rfl⟩ := mem_changedKeys.mp hmem
  obtain ⟨other, row, _, hrow, hother, hbefore, hafter⟩ := h.revised.sound _ hchange
  have hbefore := hbefore.values fun _ hmem => hmem
  have hafter := hafter.values fun _ hmem => hmem
  have hplace : other = place :=
    h.determined _ other place ⟨row, hrow, by rw [hbefore, hkey]⟩ ⟨parent, hparent, rfl⟩
  subst hplace
  cases hother.symm.trans hparent'
  rw [KeyKept, hafter, ← hkey]
  exact ⟨Ne.symm hne, rfl⟩

/-- The values under which a changed key is looked up are those of the row at its place. -/
theorem lookup_changedKeys (hcomplete : Key.hasNull (parent.values foreignKey.refColumns) = false) :
    (changedKeys foreignKey changes).lookup (Key.ofValues (parent.values foreignKey.refColumns)) =
      if KeyKept foreignKey parent parent' then none
      else some (parent'.values foreignKey.refColumns) := by
  have hvalues : ∀ values, (Key.ofValues (parent.values foreignKey.refColumns), values) ∈
      changedKeys foreignKey changes → ¬ KeyKept foreignKey parent parent' ∧
        values = parent'.values foreignKey.refColumns :=
    fun _ hmem => h.values_of_mem_changedKeys hparent hparent' hmem
  split
  · next hkept =>
    refine List.lookup_eq_none_iff.mpr fun entry hentry => ?_
    rw [bne_iff_ne]
    intro heq
    exact (hvalues entry.2 (heq ▸ hentry)).1 hkept
  · next hne =>
    rcases h.revised.complete place parent parent' hparent hparent' with
      hsame | ⟨change, hchange, hbefore, hafter⟩
    · exact absurd (by rw [KeyKept, hsame.values fun _ hmem => hmem]) hne
    have hbefore := hbefore.values fun _ hmem => hmem
    have hafter := hafter.values fun _ hmem => hmem
    have hmem : (Key.ofValues (parent.values foreignKey.refColumns),
        parent'.values foreignKey.refColumns) ∈ changedKeys foreignKey changes := by
      rw [KeyKept, hbefore, hafter] at hne
      rw [hbefore] at hcomplete ⊢
      rw [hafter]
      exact mem_changedKeys.mpr ⟨change.1, change.2, hchange, hcomplete, Ne.symm hne, rfl, rfl⟩
    have hsome : ((changedKeys foreignKey changes).lookup
        (Key.ofValues (parent.values foreignKey.refColumns))).isSome = true :=
      List.lookup_isSome_iff.mpr ⟨_, hmem, beq_self_eq_true _⟩
    obtain ⟨values, hlookup⟩ := Option.isSome_iff_exists.mp hsome
    obtain ⟨earlier, later, hsplit, -⟩ := List.lookup_eq_some_iff.mp hlookup
    rw [hlookup, (hvalues values (by simp [hsplit])).2]

/-- A row that refers to a parent moves exactly if the key of the parent changes. -/
theorem concerns_iff (table : Text) (href : Refers foreignKey row parent) :
    Question.concerns ⟨⟨foreignKey.refTable, changes⟩, table, foreignKey⟩ row = true ↔
      ¬ KeyKept foreignKey parent parent' := by
  rw [Question.concerns_eq_isSome ⟨_, table, foreignKey⟩ href, Question.keys,
    h.lookup_changedKeys hparent hparent' (complete_of_reference href _ rfl)]
  split <;> simp_all

/-- A row that moves follows its parent. -/
theorem move_eq (href : Refers foreignKey row parent) :
    Question.move ⟨⟨foreignKey.refTable, changes⟩, table, foreignKey⟩ row =
      if KeyKept foreignKey parent parent' then row
      else if foreignKey.onUpdate = .cascade then
        withReference foreignKey (parent'.values foreignKey.refColumns) row
      else nullOut foreignKey row := by
  have hlookup := h.lookup_changedKeys hparent hparent' (complete_of_reference href _ rfl)
  have hconcerns := h.concerns_iff hparent hparent' table href
  rw [Refers] at href
  split at hlookup
  · next hkept => rw [if_pos hkept, Question.move, if_neg fun hmoves => hconcerns.mp hmoves hkept]
  · next hne =>
    rw [if_neg hne, Question.move, if_pos (hconcerns.mpr hne)]
    simp only [followKey, href, Option.bind_some, Question.keys, hlookup]

end ParentsRevised

end Integrity

end SnapshotSql
