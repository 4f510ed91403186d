import SnapshotSql.Proofs.ReferenceInvariant
import SnapshotSql.Proofs.ReferencesFollow

/-! # A column on two paths

A column may refer to a primary key and also to the primary key of a second table, which follows the
first. Both references cascade, the one over the second table after the direct one, and it looks for
old keys among the values that the direct one has just written. Where a new key was a key of the second
table, the column is taken further, to the row that held this key before. A row follows its parent
exactly if this does not happen.
-/
namespace SnapshotSql

namespace Integrity

open Row (AgreeOn)

variable {database : Database} {target bottom : Text} {changes : List Change}
  {revisions : List Revision} {after : Scratch} {up direct indirect : ForeignKey}

/-- A table refers by the same columns to the primary key of a top table and to that of a middle table,
which itself refers to the top table by its primary key. All three references cascade. -/
structure TwoPaths (database : Database) (bottom : Text) (up direct indirect : ForeignKey) : Prop where
  up_mem : up ∈ database.foreignKeys indirect.refTable
  direct_mem : direct ∈ database.foreignKeys bottom
  indirect_mem : indirect ∈ database.foreignKeys bottom
  refTable_eq : up.refTable = direct.refTable
  refColumns_eq : up.refColumns = direct.refColumns
  through : up.columns = indirect.refColumns
  shared : indirect.columns = direct.columns
  topKey : database.PointsAtWholeKey direct
  middleKey : database.PointsAtWholeKey indirect
  cascade : ∀ foreignKey ∈ [up, direct, indirect], foreignKey.onUpdate = .cascade
  middle_ne : indirect.refTable ≠ direct.refTable
  bottom_ne : bottom ≠ indirect.refTable

/-- No other references go over the columns of the two paths. -/
structure PathsAlone (database : Database) (bottom : Text) (up direct indirect : ForeignKey) : Prop where
  top : ∀ other ∈ database.foreignKeys direct.refTable, other.refTable = direct.refTable →
    ∀ column ∈ other.columns, column ∉ direct.refColumns
  up_once : (database.foreignKeys indirect.refTable).count up = 1
  middle : ∀ other ∈ database.foreignKeys indirect.refTable, other ≠ up →
    ∀ column ∈ other.columns, column ∉ up.columns
  direct_once : (database.foreignKeys bottom).count direct = 1
  indirect_once : (database.foreignKeys bottom).count indirect = 1
  bottom : ∀ other ∈ database.foreignKeys bottom, other ≠ direct → other ≠ indirect →
    ∀ column ∈ other.columns, column ∉ direct.columns

/-- The middle table is revised once, with its references to the top table. -/
theorem UpdateRun.revisedOnce_middle
    (h : UpdateRun database direct.refTable changes revisions after)
    (hlisted : database.Listed) (hbuilt : database.WellBuilt)
    (hpaths : TwoPaths database bottom up direct indirect)
    (halone : PathsAlone database bottom up direct indirect) :
    RevisedOnce revisions direct.refTable (· ∈ direct.refColumns)
        (database.tableRows direct.refTable) (Staging.rowsIn database after direct.refTable)
        (changes.map Change.rows) ∧
      SolePath database revisions indirect.refTable up (· ∈ up.columns) ∧
      ∃ changed, RevisedOnce revisions indirect.refTable (· ∈ up.columns)
        (database.tableRows indirect.refTable) (Staging.rowsIn database after indirect.refTable)
        changed := by
  have htop := h.revisedOnce_target hlisted hbuilt halone.top
  have hpath : SolePath database revisions indirect.refTable up (· ∈ up.columns) :=
    ⟨halone.up_once, fun _ hmem => hmem, fun other hother hne => Or.inl (halone.middle other hother hne)⟩
  refine ⟨htop, hpath, ?_⟩
  rw [← startOf_rows_of_ne hpaths.middle_ne]
  exact h.trace.revisedOnce_of_solePath rfl (List.forall_mem_singleton.mpr hpaths.middle_ne.symm) hpath
    (htop.rekeys up hpaths.refTable_eq fun column hcolumn => hpaths.refColumns_eq ▸ hcolumn)

theorem TwoPaths.bottom_ne_top (hpaths : TwoPaths database bottom up direct indirect)
    (hlisted : database.Listed) (hbuilt : database.WellBuilt) : bottom ≠ direct.refTable := by
  intro heq
  have hup := hlisted.place_lt hbuilt hpaths.up_mem (hpaths.refTable_eq ▸ hpaths.middle_ne.symm)
  have hdown := hlisted.place_lt hbuilt hpaths.indirect_mem hpaths.bottom_ne.symm
  rw [hpaths.refTable_eq, ← heq] at hup
  omega

/-- A row of the bottom table follows the top table first and then the middle table. -/
theorem UpdateRun.exists_moved_twice
    (h : UpdateRun database direct.refTable changes revisions after)
    (hlisted : database.Listed) (hbuilt : database.WellBuilt)
    (hpaths : TwoPaths database bottom up direct indirect)
    (halone : PathsAlone database bottom up direct indirect) {changed : List (Row × Row)}
    (hmiddle : RevisedOnce revisions indirect.refTable (· ∈ up.columns)
      (database.tableRows indirect.refTable) (Staging.rowsIn database after indirect.refTable) changed)
    {position : Nat} {row : Row} (hrow : (database.tableRows bottom)[position]? = some row) :
    ∃ row', (Staging.rowsIn database after bottom)[position]? = some row' ∧
      AgreeOn (· ∈ direct.columns) row'
        (Question.move ⟨⟨indirect.refTable, changed⟩, bottom, indirect⟩
          (Question.move ⟨⟨direct.refTable, changes.map Change.rows⟩, bottom, direct⟩ row)) := by
  have htop := (h.revisedOnce_middle hlisted hbuilt hpaths halone).1
  have htopOnce := htop.rekeys direct rfl fun _ hmem => hmem
  have hmiddleOnce := hmiddle.rekeys indirect rfl fun _ hmem => hpaths.through ▸ hmem
  obtain ⟨later, hlater⟩ := h.head_eq
  -- the first revision is of the top table only, and no later one is about its keys
  have hfirst : SolePath database [⟨direct.refTable, changes.map Change.rows⟩] bottom direct
      (· ∈ direct.columns) := by
    refine ⟨halone.direct_once, fun _ hmem => hmem, fun other hother hne => ?_⟩
    by_cases heq : other = indirect
    · subst heq
      exact Or.inr (filter_rekeys_of_ne (List.forall_mem_singleton.mpr hpaths.middle_ne.symm))
    · exact Or.inl (halone.bottom other hother hne heq)
  have hrest : SolePath database later bottom indirect (· ∈ direct.columns) := by
    refine ⟨halone.indirect_once, fun _ hmem => hpaths.shared ▸ hmem, fun other hother hne => ?_⟩
    by_cases heq : other = direct
    · subst heq
      rw [hlater, ← List.singleton_append, List.filter_append, List.append_right_eq_self] at htopOnce
      exact Or.inr htopOnce
    · exact Or.inl (halone.bottom other hother heq hne)
  have hlaterOnce : later.filter (Revision.rekeys indirect) =
      [⟨indirect.refTable, changed⟩].filter (Revision.rekeys indirect) := by
    rw [← hmiddleOnce, hlater, ← List.singleton_append, List.filter_append,
      filter_rekeys_of_ne (List.forall_mem_singleton.mpr hpaths.middle_ne.symm), List.nil_append]
  refine ⟨moves bottom (revisions.flatMap (Revision.questions database)) row, ?_, ?_⟩
  · rw [h.rows_eq, startOf_rows_of_ne (hpaths.bottom_ne_top hlisted hbuilt), List.getElem?_map, hrow,
      Option.map_some]
  · rw [hlater, ← List.singleton_append, List.flatMap_append, moves_append]
    refine (hrest.agreeOn_moves rfl hlaterOnce _).trans (AgreeOn.move ?_ hrest.inside)
    exact hfirst.agreeOn_moves rfl rfl row

/-! ## Where the second path leads -/

section
variable {tops tops' middles middles' : List Row} {changed : List (Row × Row)} {row row' parent parent' : Row}

/-- The new key of a parent was the key of another row of its table, which changes too and which the
middle table referred to. -/
def Overtaken (direct up : ForeignKey) (tops tops' middles : List Row) (parent' : Row) : Prop :=
  ∃ (place : Nat) (other other' middle : Row), tops[place]? = some other ∧ tops'[place]? = some other' ∧
    ¬ KeyKept direct other other' ∧ KeyKept direct other parent' ∧
    middle ∈ middles ∧ Refers up middle other

/-- A parent whose new key was that of a row to which the middle table referred is overtaken exactly if
that row has changed its key, as no other row had it. -/
theorem overtaken_iff {place : Nat} {other other' middle : Row} (htops : Determined direct tops)
    (hother : tops[place]? = some other) (hother' : tops'[place]? = some other')
    (hkey : KeyKept direct other parent') (hmiddle : middle ∈ middles) (hup : Refers up middle other) :
    Overtaken direct up tops tops' middles parent' ↔ ¬ KeyKept direct other other' := by
  constructor
  · rintro ⟨second, found, found', _, hfound, hfound', hchanged, hfoundKey, -, -⟩
    have hplace : second = place :=
      htops _ second place ⟨found, hfound, rfl⟩ ⟨other, hother, hkey.symm.trans hfoundKey⟩
    subst hplace
    cases hfound.symm.trans hother
    cases hfound'.symm.trans hother'
    exact hchanged
  · intro hchanged
    exact ⟨place, other, other', middle, hother, hother', hchanged, hkey, hmiddle, hup⟩

/-- Each row of the middle table refers to a row of the top table, before and after the UPDATE. -/
def MiddlesFollow (up : ForeignKey) (tops tops' middles middles' : List Row) : Prop :=
  ∀ (position : Nat) (middle middle' : Row), middles[position]? = some middle →
    middles'[position]? = some middle' → ∃ (place : Nat) (other other' : Row),
      tops[place]? = some other ∧ tops'[place]? = some other' ∧ Refers up middle other ∧
        Refers up middle' other'

variable (hpaths : TwoPaths database bottom up direct indirect)
include hpaths

theorem TwoPaths.key_eq (h : Refers up row parent) :
    Key.ofValues (row.values indirect.refColumns) = Key.ofValues (parent.values direct.refColumns) := by
  rw [← hpaths.through, ← hpaths.refColumns_eq]
  exact ((reference?_eq_some_iff ..).mp h).2

theorem TwoPaths.reference?_eq (row : Row) : reference? indirect row = reference? direct row := by
  simp only [reference?, hpaths.shared]

/-- The key of a parent that a row has been taken to is the key of a row of the middle table. -/
theorem TwoPaths.key_eq_of_refers (href : Refers direct row parent) (hmet : Refers indirect row parent') :
    Key.ofValues (parent'.values indirect.refColumns) = Key.ofValues (parent.values direct.refColumns) := by
  rw [Refers, hpaths.reference?_eq, href, Option.some.injEq] at hmet
  exact hmet.symm

/-- A row that the direct path has taken to its parent is taken further exactly if it is overtaken. -/
theorem refers_iff_not_overtaken (hpaired : Paired indirect) (htops : Determined direct tops)
    (hmiddles : ParentsRevised revisions indirect middles middles' changed)
    (hfollow : MiddlesFollow up tops tops' middles middles') (href : Refers direct row parent')
    (hrow : AgreeOn (· ∈ direct.columns) row'
      (Question.move ⟨⟨indirect.refTable, changed⟩, bottom, indirect⟩ row)) :
    Refers direct row' parent' ↔ ¬ Overtaken direct up tops tops' middles parent' := by
  by_cases hmet : ∃ (position : Nat) (middle : Row), middles[position]? = some middle ∧
      Refers indirect row middle
  · obtain ⟨position, middle, hmiddle, hmet⟩ := hmet
    obtain ⟨middle', hmiddle'⟩ := hmiddles.exists_parent hmiddle
    obtain ⟨place, other, other', hother, hother', hup, hup'⟩ :=
      hfollow position middle middle' hmiddle hmiddle'
    have hcascade : indirect.onUpdate = .cascade := hpaths.cascade indirect (by simp)
    have htaken : Refers indirect row' middle' := by
      refine (hmiddles.follows bottom hpaired hmiddle hmiddle' hmet (hpaths.shared ▸ hrow) ?_).cascade hcascade
      exact fun haction => absurd (hcascade.symm.trans haction) (by decide)
    have hparent : Key.ofValues (parent'.values direct.refColumns) =
        Key.ofValues (other.values direct.refColumns) := by
      rw [← hpaths.key_eq_of_refers href hmet, hpaths.key_eq hup]
    have hrefers : Refers direct row' parent' ↔ KeyKept direct other other' := by
      rw [Refers, ← hpaths.reference?_eq, htaken, Option.some.injEq, hpaths.key_eq hup', hparent]
      rfl
    have hovertaken : Overtaken direct up tops tops' middles parent' ↔ ¬ KeyKept direct other other' :=
      overtaken_iff htops hother hother' hparent (List.mem_of_getElem? hmiddle) hup
    rw [hrefers, hovertaken, not_not]
  · have hstays : ¬ Question.concerns ⟨⟨indirect.refTable, changed⟩, bottom, indirect⟩ row = true :=
      fun hconcerns => hmet (hmiddles.exists_refers hconcerns)
    rw [Question.move, if_neg hstays] at hrow
    refine iff_of_true (href.of_agreeOn hrow rfl) ?_
    rintro ⟨_, found, _, middle, -, -, -, hkey, hmiddle, hup⟩
    obtain ⟨position, hposition⟩ := List.mem_iff_getElem?.mp hmiddle
    refine hmet ⟨position, middle, hposition, ?_⟩
    rw [Refers, hpaths.reference?_eq, href, hpaths.key_eq hup, hkey]

end

end Integrity

namespace Database

open Integrity
open Row (AgreeOn)

variable {database : Database} {limit : Int} {update : Update} {outcome : Outcome} {bottom : Text}
  {up direct indirect : ForeignKey}

/-- A complete reference to a whole primary key finds its row in a reachable snapshot. -/
theorem Reachable.exists_refers {table : Text} {foreignKey : ForeignKey} {row : Row}
    (h : database.Reachable) (hforeign : foreignKey ∈ database.foreignKeys table)
    (hkey : database.PointsAtWholeKey foreignKey) (hrow : row ∈ database.tableRows table)
    (hcomplete : Key.hasNull (row.values foreignKey.columns) = false) :
    ∃ (place : Nat) (parent : Row), (database.tableRows foreignKey.refTable)[place]? = some parent ∧
      Refers foreignKey row parent := by
  obtain ⟨schema, hschema, hview, hcolumns⟩ := hkey
  have hmatched := matched_iff.mp (h.referencesHold table foreignKey hforeign
    ⟨schema, hschema, hview, fun column hmem => (hcolumns column).mp hmem⟩)
  have href := (reference?_eq_some_iff ..).mpr ⟨hcomplete, rfl⟩
  obtain ⟨place, parent, hparent, hkey⟩ := hmatched row hrow _ href
  exact ⟨place, parent, hparent, href.trans (congrArg some hkey.symm)⟩

/-- The primary key of the middle table is a reference, which cascades. -/
theorem Reachable.middlesFollow {target : Text} {changes : List Change} {revisions : List Revision}
    {after : Scratch} {tops' : List Row} {changed : List (Row × Row)} (hreachable : database.Reachable)
    (h : UpdateRun database target changes revisions after)
    (hpaths : TwoPaths database bottom up direct indirect) (hne : indirect.refTable ≠ target)
    (hpath : SolePath database revisions indirect.refTable up (· ∈ up.columns))
    (hupKey : database.PointsAtWholeKey up)
    (hups : ParentsRevised revisions up (database.tableRows up.refTable) tops' changed) :
    MiddlesFollow up (database.tableRows up.refTable) tops' (database.tableRows indirect.refTable)
      (Staging.rowsIn database after indirect.refTable) := by
  intro position middle middle' hmiddle hmiddle'
  have hcascade : up.onUpdate = .cascade := hpaths.cascade up (by simp)
  have hmem := List.mem_of_getElem? hmiddle
  have hcomplete : Key.hasNull (middle.values up.columns) = false := by
    rw [hpaths.through]
    exact hpaths.middleKey.complete hreachable.keysHold hmem
  obtain ⟨place, other, hother, hup⟩ := hreachable.exists_refers hpaths.up_mem hupKey hmem hcomplete
  obtain ⟨other', hother'⟩ := hups.exists_parent hother
  obtain ⟨moved, hmoved, hmove⟩ := h.exists_moved hne hpath rfl hups.rekeys_eq hmiddle
  cases hmoved.symm.trans hmiddle'
  refine ⟨place, other, other', hother, hother', hup, ?_⟩
  refine (hups.follows indirect.refTable (hreachable.wellBuilt.paired hpaths.up_mem) hother hother' hup hmove ?_).cascade
    hcascade
  exact fun haction => absurd (hcascade.symm.trans haction) (by decide)

/-- A row that refers to the primary key of a table over two cascading paths refers to the same row after
an UPDATE of that table exactly if the new key of that row is not overtaken. -/
theorem refers_after_iff (hreachable : database.Reachable)
    (hpaths : TwoPaths database bottom up direct indirect)
    (halone : PathsAlone database bottom up direct indirect)
    (hupdate : database.update limit update = .ok outcome) (htable : update.table = direct.refTable)
    {position place : Nat} {row parent : Row} (hrow : (database.tableRows bottom)[position]? = some row)
    (hparent : (database.tableRows direct.refTable)[place]? = some parent)
    (href : Refers direct row parent) :
    ∃ row' parent', ((outcome.snapshot database).tableRows bottom)[position]? = some row' ∧
      ((outcome.snapshot database).tableRows direct.refTable)[place]? = some parent' ∧
      (Refers direct row' parent' ↔ ¬ Overtaken direct up (database.tableRows direct.refTable)
        ((outcome.snapshot database).tableRows direct.refTable)
        (database.tableRows indirect.refTable) parent') := by
  have hlisted := hreachable.listed
  have hbuilt := hreachable.wellBuilt
  have hkeys := hreachable.keysHold
  obtain ⟨_, changes, count, -, -, -, hchanges, hpublish⟩ := of_update_eq_ok hlisted hupdate
  rw [htable] at hchanges hpublish
  have hkeys' := hkeys.update hchanges hpublish
  have hschemas := schemas_of_publish hpublish
  obtain ⟨revisions, after, h, hafter⟩ := exists_updateRun hchanges hpublish
  obtain ⟨htop, hpath, changed, hmiddle⟩ := h.revisedOnce_middle hlisted hbuilt hpaths halone
  have hmoved := h.exists_moved_twice hlisted hbuilt hpaths halone hmiddle hrow
  rw [← hafter] at htop hmiddle hmoved
  have hupKey : database.PointsAtWholeKey up := by
    rw [PointsAtWholeKey, hpaths.refTable_eq, hpaths.refColumns_eq]
    exact hpaths.topKey
  have htops := hpaths.topKey.parentsRevised hbuilt hkeys hkeys' hschemas htop fun _ hmem => hmem
  have hups := hupKey.parentsRevised hbuilt hkeys hkeys' hschemas (hpaths.refTable_eq.symm ▸ htop)
    fun _ hmem => hpaths.refColumns_eq ▸ hmem
  have hmiddles := hpaths.middleKey.parentsRevised hbuilt hkeys hkeys' hschemas hmiddle
    fun _ hmem => hpaths.through ▸ hmem
  have hfollow := hreachable.middlesFollow h hpaths hpaths.middle_ne hpath hupKey hups
  rw [← hafter, hpaths.refTable_eq] at hfollow
  obtain ⟨row', hrow', hmove⟩ := hmoved
  obtain ⟨parent', hparent'⟩ := htops.exists_parent hparent
  have hcascade : direct.onUpdate = .cascade := hpaths.cascade direct (by simp)
  have htaken := (htops.follows bottom (hbuilt.paired hpaths.direct_mem) hparent hparent' href
    (AgreeOn.refl _) fun haction => absurd (hcascade.symm.trans haction) (by decide)).cascade hcascade
  exact ⟨row', parent', hrow', hparent', refers_iff_not_overtaken hpaths
    (hbuilt.paired hpaths.indirect_mem) htops.determined hmiddles hfollow htaken hmove⟩

def crossingTexts : List (Int × Text) :=
  [(64, "CREATE TABLE c(id INT PRIMARY KEY, x INT REFERENCES a(id) ON UPDATE CASCADE REFERENCES b(id) ON UPDATE CASCADE)"),
    (64, "INSERT INTO c VALUES (1, 1)")]

/-- A foreign key from one column to the primary key id, which cascades updates. -/
def cascading (column refTable : Text) : ForeignKey :=
  ⟨[column], refTable, ["id"], .restrict, .cascade, none⟩

def crossing : Database :=
  let plain (name : Text) : Column := ⟨name, .int, false, false, false⟩
  ⟨"c",
    ladder.schemas.insert "c" ⟨"c", [plain "id", plain "x"], ["id"], [],
      [cascading "x" "a", cascading "x" "b"], .column, false⟩,
    ladder.rows.insert "c" [.ofList [("id", .int 1), ("x", .int 1)]]⟩

set_option maxRecDepth 20000 in
theorem crossing_reachable : crossing.Reachable := by
  have hcrossing : ladder.afterAll crossingTexts = crossing := by decide +kernel
  exact hcrossing ▸ ladder_reachable.afterAll crossingTexts

theorem crossing_twoPaths :
    TwoPaths crossing "c" (cascading "id" "a") (cascading "x" "a") (cascading "x" "b") where
  up_mem := by decide +kernel
  direct_mem := by decide +kernel
  indirect_mem := by decide +kernel
  refTable_eq := rfl
  refColumns_eq := rfl
  through := rfl
  shared := rfl
  topKey := ⟨_, rfl, rfl, fun _ => Iff.rfl⟩
  middleKey := ⟨_, rfl, rfl, fun _ => Iff.rfl⟩
  cascade := by decide
  middle_ne := by decide
  bottom_ne := by decide

/-- Where the keys of the top table are exchanged the two paths are alone. -/
theorem refers_after_iff_crossing : ∃ outcome row' parent',
    crossing.update 64 (exchange "a") = .ok outcome ∧
      ((outcome.snapshot crossing).tableRows "c")[0]? = some row' ∧
      ((outcome.snapshot crossing).tableRows "a")[0]? = some parent' ∧
      (Refers (cascading "x" "a") row' parent' ↔ ¬ Overtaken (cascading "x" "a") (cascading "id" "a")
        (crossing.tableRows "a") ((outcome.snapshot crossing).tableRows "a") (crossing.tableRows "b")
        parent') := by
  have hok : (crossing.update 64 (exchange "a")).isOk = true := by decide +kernel
  obtain ⟨outcome, h⟩ := Check.exists_of_isOk hok
  have halone : PathsAlone crossing "c" (cascading "id" "a") (cascading "x" "a") (cascading "x" "b") :=
    ⟨by decide +kernel, by decide +kernel, by decide +kernel, by decide +kernel, by decide +kernel,
      by decide +kernel⟩
  obtain ⟨row', parent', hrow', hparent', hiff⟩ := refers_after_iff crossing_reachable crossing_twoPaths
    halone h rfl (rfl : (crossing.tableRows "c")[0]? = some _) (rfl : (crossing.tableRows "a")[0]? = some _)
    (by decide +kernel)
  exact ⟨outcome, row', parent', h, hrow', hparent', hiff⟩

/-- It is not so that a row on two paths always refers to the same row after an UPDATE. -/
theorem not_refers_after_every_update : ¬ ∀ (database : Database) (bottom : Text)
    (up direct indirect : ForeignKey), database.Reachable → TwoPaths database bottom up direct indirect →
      ∀ (limit : Int) (update : Update) (outcome : Outcome),
        database.update limit update = .ok outcome → update.table = direct.refTable →
        ∀ (position place : Nat) (row parent row' parent' : Row),
          (database.tableRows bottom)[position]? = some row →
          (database.tableRows direct.refTable)[place]? = some parent → Refers direct row parent →
          ((outcome.snapshot database).tableRows bottom)[position]? = some row' →
          ((outcome.snapshot database).tableRows direct.refTable)[place]? = some parent' →
            Refers direct row' parent' := by
  intro hevery
  have hok : (crossing.update 64 (exchange "a")).isOk = true := by decide +kernel
  obtain ⟨outcome, h⟩ := Check.exists_of_isOk hok
  have hrows : (crossing.update 64 (exchange "a")).toOption.map (fun outcome =>
      (((outcome.snapshot crossing).tableRows "c")[0]?, ((outcome.snapshot crossing).tableRows "a")[0]?)) =
      some (some (.ofList [("id", .int 1), ("x", .int 1)]), some (.ofList [("id", .int 2)])) := by
    decide +kernel
  simp only [h, Except.toOption, Option.map_some, Option.some.injEq, Prod.mk.injEq] at hrows
  have hrefers := hevery crossing "c" _ _ _ crossing_reachable crossing_twoPaths 64 (exchange "a") outcome h
    rfl 0 0 _ _ _ _ rfl rfl (by decide +kernel) hrows.1 hrows.2
  exact absurd hrefers (by decide +kernel)

end Database

end SnapshotSql
