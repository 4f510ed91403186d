import SnapshotSql.Proofs.OverflowingCasts
import SnapshotSql.Proofs.RefusedDeletes
import SnapshotSql.Proofs.UpdateRuns

/-! # How deep cascades go

The items of a cascade, waves of a DELETE or revisions of an UPDATE, are answered depth by depth. Each
new item belongs to a table with a reference to the table of an item one depth above. Where no table
refers to itself, references lead from tables to later ones only, so an item of a depth has at least as
many tables in front of its own, and no cascade is as deep as there are tables. The limit of the depth
refuses exactly the writes that have an item beyond it.
-/
namespace SnapshotSql

/-- Where each step appends items that its event accounts for, the trace does. -/
theorem Trace.exists_later {σ κ ι : Type} {step : σ → κ → σ → Prop} (items : σ → List ι)
    (accounts : κ → ι → Prop) {first last : σ} {events : List κ}
    (hstep : ∀ state event next, step state event next →
      ∃ added, items next = items state ++ added ∧ ∀ item ∈ added, accounts event item)
    (h : Trace step first events last) :
    ∃ later, items last = items first ++ later ∧
      ∀ item ∈ later, ∃ event ∈ events, accounts event item := by
  induction h with
  | nil => exact ⟨[], by simp, nofun⟩
  | @cons state middle last event events hfirst _ ih =>
    obtain ⟨added, hadded, haccounts⟩ := hstep _ _ _ hfirst
    obtain ⟨later, hlater, hevents⟩ := ih
    refine ⟨added ++ later, by rw [hlater, hadded, List.append_assoc],
      List.forall_mem_append.mpr ⟨fun item hitem => ?_, fun item hitem => ?_⟩⟩
    · exact ⟨event, List.mem_cons_self, haccounts item hitem⟩
    · obtain ⟨other, hother, haccount⟩ := hevents item hitem
      exact ⟨other, List.mem_cons_of_mem _ hother, haccount⟩

namespace Integrity

/-! ## Depth by depth -/

/-- A cascade under way: the items of one depth, which are answered next, all items so far, and the
staged tables. -/
structure Cascade (κ : Type) where
  level : List κ
  all : List κ
  staged : Scratch

/-- A cascade comes to another by answering so many depths. -/
inductive Deepens {κ : Type} (answered : List κ → List κ → Staging (List κ)) :
    Nat → Cascade κ → Cascade κ → Prop where
  | here (cascade : Cascade κ) : Deepens answered 0 cascade cascade
  | deeper {depth : Nat} {cascade last : Cascade κ} {next : List κ} {after : Scratch}
      (hruns : Staging.Runs (answered cascade.level cascade.all) cascade.staged next after)
      (h : Deepens answered depth ⟨next, cascade.all ++ next, after⟩ last) :
      Deepens answered (depth + 1) cascade last

/-- An item that stands in the queue of a cascade with a depth. -/
def ItemAt {κ : Type} (answered : List κ → List κ → Staging (List κ)) (first : Cascade κ)
    (depth : Nat) (item : κ) : Prop :=
  ∃ last, Deepens answered depth first last ∧ item ∈ last.level

section
variable {κ : Type} {answered : List κ → List κ → Staging (List κ)} {depth : Nat}
  {cascade last : Cascade κ}

theorem deepens_succ_iff : Deepens answered (depth + 1) cascade last ↔
    ∃ next after, Staging.Runs (answered cascade.level cascade.all) cascade.staged next after ∧
      Deepens answered depth ⟨next, cascade.all ++ next, after⟩ last := by
  constructor
  · intro h
    cases h with
    | deeper hruns h => exact ⟨_, _, hruns, h⟩
  · rintro ⟨_, _, hruns, h⟩
    exact .deeper hruns h

theorem deepens_zero_iff : Deepens answered 0 cascade last ↔ last = cascade := by
  constructor
  · intro h
    cases h with
    | here => rfl
  · rintro rfl
    exact .here _

/-- Where nothing is left to answer, nothing comes after it. -/
theorem Deepens.level_eq_nil
    (hnone : ∀ {all before next after}, Staging.Runs (answered [] all) before next after → next = [])
    (h : Deepens answered depth cascade last) (hempty : cascade.level = []) : last.level = [] := by
  induction h with
  | here => exact hempty
  | deeper hruns _ ih => exact ih (hnone (hempty ▸ hruns))

/-- Items that are farther on than one of those that they answer are so far on as they are deep. -/
theorem Deepens.le_place {holds : κ → Prop} (place : κ → Nat) {bound : Nat}
    (hstep : ∀ {cascade : Cascade κ} {next : List κ} {after : Scratch},
      cascade.level ⊆ cascade.all →
      Staging.Runs (answered cascade.level cascade.all) cascade.staged next after →
      ∀ item ∈ next, holds item ∧ ∃ about ∈ cascade.level, place about < place item)
    (h : Deepens answered depth cascade last) (hall : cascade.level ⊆ cascade.all)
    (hfirst : ∀ item ∈ cascade.level, holds item ∧ bound ≤ place item) :
    ∀ item ∈ last.level, holds item ∧ bound + depth ≤ place item := by
  induction h generalizing bound with
  | here => exact hfirst
  | @deeper depth cascade last next after hruns h ih =>
    have hnext : ∀ item ∈ next, holds item ∧ bound + 1 ≤ place item := by
      intro item hitem
      obtain ⟨hholds, about, habout, hlt⟩ := hstep hall hruns item hitem
      have hbound := (hfirst about habout).2
      exact ⟨hholds, by omega⟩
    intro item hitem
    obtain ⟨hholds, hle⟩ := ih (List.subset_append_right _ _) hnext item hitem
    exact ⟨hholds, by omega⟩

/-- A run that answers depth by depth, and is refused if no more depths are allowed while items are
left, is refused exactly if answering all depths leaves items. -/
theorem refused_iff_item {α : Type} (run : Nat → List κ → List κ → Staging α) {error : SqlError}
    {depths : Nat} {level all : List κ} {before : Scratch}
    (hnone : ∀ {all before next after}, Staging.Runs (answered [] all) before next after → next = [])
    (hdone : ∀ {depths all before}, ¬ Staging.Refused (run depths [] all) before error)
    (hlimit : ∀ {level all before}, level ≠ [] → Staging.Refused (run 0 level all) before error)
    (hnext : ∀ {depths level all before}, level ≠ [] → level ⊆ all →
      (Staging.Refused (run (depths + 1) level all) before error ↔
        ∃ next after, Staging.Runs (answered level all) before next after ∧
          Staging.Refused (run depths next (all ++ next)) after error))
    (hall : level ⊆ all) :
    Staging.Refused (run depths level all) before error ↔
      ∃ item, ItemAt answered ⟨level, all, before⟩ depths item := by
  induction depths generalizing level all before with
  | zero =>
    simp only [ItemAt, deepens_zero_iff, exists_eq_left]
    constructor
    · exact fun h => List.exists_mem_of_ne_nil level fun hlevel => hdone (hlevel ▸ h)
    · exact fun ⟨_, hitem⟩ => hlimit (List.ne_nil_of_mem hitem)
  | succ depths ih =>
    by_cases hlevel : level = []
    · subst hlevel
      refine iff_of_false hdone ?_
      rintro ⟨item, last, hlast, hitem⟩
      exact List.ne_nil_of_mem hitem (hlast.level_eq_nil hnone rfl)
    · rw [hnext hlevel hall]
      simp only [ih (List.subset_append_right _ _), ItemAt, deepens_succ_iff]
      constructor
      · rintro ⟨next, after, hruns, item, last, hlast, hitem⟩
        exact ⟨item, last, ⟨next, after, hruns, hlast⟩, hitem⟩
      · rintro ⟨item, last, ⟨next, after, hruns, hlast⟩, hitem⟩
        exact ⟨next, after, hruns, item, last, hlast, hitem⟩

end

end Integrity

def Database.NoSelfReferences (database : Database) : Prop :=
  ∀ table, ∀ foreignKey ∈ database.foreignKeys table, foreignKey.refTable ≠ table

instance (database : Database) : Decidable database.NoSelfReferences :=
  decidable_of_iff' _ Database.forall_foreignKeys_iff

namespace Integrity

variable {database : Database} {table : Text} {limit : Int} {depths : Nat} {before : Scratch}

/-- A question leads from the table that it is about to a later one. -/
theorem place_lt_of_mem_questionsAbout {κ : Type} {about : κ} {question : Question κ}
    (hlisted : database.Listed) (hbuilt : database.WellBuilt) (hself : database.NoSelfReferences)
    (h : question ∈ questionsAbout database table about) :
    question.about = about ∧ question.child ∈ database.tableNames ∧
      database.place table < database.place question.child := by
  obtain ⟨habout, hforeign, rfl⟩ := (mem_questionsAbout ..).mp h
  refine ⟨habout, ?_, hlisted.place_lt hbuilt hforeign (hself _ _ hforeign)⟩
  by_contra hmissing
  rw [Database.foreignKeys_eq_nil hmissing] at hforeign
  cases hforeign

theorem place_lt_length (h : table ∈ database.tableNames) :
    database.place table < database.tableNames.length :=
  List.idxOf_lt_length_iff.mpr h

/-! ## Waves -/

def deleteStart (table : Text) (positions : List Nat) : Cascade Wave :=
  ⟨[⟨table, positions⟩], [⟨table, positions⟩], .empty⟩

def WaveAt (database : Database) (table : Text) (positions : List Nat) (depth : Nat) (wave : Wave) :
    Prop :=
  ItemAt (deleteDepth database) (deleteStart table positions) depth wave

theorem exists_wave_above (hlisted : database.Listed) (hbuilt : database.WellBuilt)
    (hself : database.NoSelfReferences) {cascade : Cascade Wave} {next : List Wave} {after : Scratch}
    (hall : cascade.level ⊆ cascade.all)
    (h : Staging.Runs (deleteDepth database cascade.level cascade.all) cascade.staged next after) :
    ∀ wave ∈ next, wave.table ∈ database.tableNames ∧
      ∃ about ∈ cascade.level, database.place about.table < database.place wave.table := by
  obtain ⟨later, hlater, haccounts⟩ := (trace_of_deleteDepth (fun _ h => hall h) h).exists_later
    Progress.waves (fun question wave => wave.table = question.child) (by
      rintro state question next ⟨-, -, -, parents, -, hanswer⟩
      cases hanswer with
      | spare _ => exact ⟨[], by simp, nofun⟩
      | cascade _ _ => exact ⟨_, rfl, List.forall_mem_singleton.mpr rfl⟩
      | clear _ _ => exact ⟨[], by simp, nofun⟩)
  obtain rfl : next = later := List.append_cancel_left hlater
  intro wave hwave
  obtain ⟨question, hquestion, htable⟩ := haccounts wave hwave
  obtain ⟨about, habout, hasked⟩ := List.mem_flatMap.mp hquestion
  obtain ⟨-, hthere, hlt⟩ := place_lt_of_mem_questionsAbout hlisted hbuilt hself hasked
  rw [htable]
  exact ⟨hthere, about, habout, hlt⟩

theorem WaveAt.depth_lt (hlisted : database.Listed) (hbuilt : database.WellBuilt)
    (hself : database.NoSelfReferences) (htable : table ∈ database.tableNames)
    {positions : List Nat} {depth : Nat} {wave : Wave}
    (h : WaveAt database table positions depth wave) : depth < database.tableNames.length := by
  obtain ⟨last, hlast, hwave⟩ := h
  have hplace := hlast.le_place (fun wave => database.place wave.table)
    (exists_wave_above hlisted hbuilt hself) (List.Subset.refl _)
    (List.forall_mem_singleton.mpr ⟨htable, Nat.zero_le _⟩) wave hwave
  have hlt := place_lt_length hplace.1
  omega

/-- No question of a cascade is refused as the limit of the depth is. -/
theorem RestrictedAfter.ne_depthLimit {first : Progress} {error : SqlError}
    (h : RestrictedAfter database first error) (write : Text) :
    error ≠ .blocked (.depthLimit write limit) := by
  obtain ⟨_, _, _, -, hrestricts⟩ := h
  obtain ⟨-, -, -, rfl⟩ := hrestricts.affected
  exact nofun

/-- The limit refuses a DELETE exactly if a wave has a depth that is not allowed. -/
theorem refused_delete_iff {positions : List Nat} :
    Staging.Refused (delete database limit table positions) .empty
        (.blocked (.depthLimit "DELETE" limit)) ↔
      ∃ wave, WaveAt database table positions (depthsWithin limit) wave := by
  simp only [delete, Staging.refused_bind, not_refused_removals, Staging.refused_pure, and_false,
    exists_false, or_false]
  refine refused_iff_item (deleteWaves database limit)
    (fun h => (Staging.runs_pure.mp h).1) ?_ ?_ ?_ (List.Subset.refl _)
  · intro depths all before
    unfold deleteWaves
    exact Staging.refused_pure
  · rintro (_ | ⟨wave, level⟩) all before hlevel
    · exact absurd rfl hlevel
    · exact Staging.refused_throw.mpr rfl
  · rintro depths (_ | ⟨wave, level⟩) all before hlevel hall
    · exact absurd rfl hlevel
    · have hanswered : ¬ Staging.Refused (deleteDepth database (wave :: level) all) before
          (.blocked (.depthLimit "DELETE" limit)) :=
        fun h => (of_refused_deleteDepth (fun _ hmem => hall hmem) h).ne_depthLimit _ rfl
      simp only [deleteWaves, Staging.refused_bind, or_iff_right hanswered]

/-! ## Revisions -/

def updateStart (database : Database) (table : Text) (changes : List Change) : Cascade Revision :=
  let start := startOf database table changes
  ⟨start.revisions, start.revisions, start.staged⟩

def RevisionAt (database : Database) (table : Text) (changes : List Change) (depth : Nat)
    (revision : Revision) : Prop :=
  ItemAt (fun level _ => updateDepth database level) (updateStart database table changes) depth revision

theorem exists_revision_above (hlisted : database.Listed) (hbuilt : database.WellBuilt)
    (hself : database.NoSelfReferences) {cascade : Cascade Revision} {next : List Revision}
    {after : Scratch} (hall : cascade.level ⊆ cascade.all)
    (h : Staging.Runs (updateDepth database cascade.level) cascade.staged next after) :
    ∀ revision ∈ next, revision.table ∈ database.tableNames ∧
      ∃ about ∈ cascade.level, database.place about.table < database.place revision.table := by
  obtain ⟨later, hlater, haccounts⟩ := (trace_of_updateDepth (fun _ h => hall h) h).exists_later
    Revising.revisions (fun question revision => revision.table = question.child)
    fun _ _ _ hstep => ⟨_, hstep.revisions_eq, fun _ => Question.table_of_mem_revisions⟩
  obtain rfl : next = later := List.append_cancel_left hlater
  intro revision hrevision
  obtain ⟨question, hquestion, htable⟩ := haccounts revision hrevision
  obtain ⟨about, habout, hasked⟩ := List.mem_flatMap.mp hquestion
  obtain ⟨-, hthere, hlt⟩ := place_lt_of_mem_questionsAbout hlisted hbuilt hself hasked
  rw [htable]
  exact ⟨hthere, about, habout, hlt⟩

theorem RevisionAt.depth_lt (hlisted : database.Listed) (hbuilt : database.WellBuilt)
    (hself : database.NoSelfReferences) (htable : table ∈ database.tableNames)
    {changes : List Change} {depth : Nat} {revision : Revision}
    (h : RevisionAt database table changes depth revision) : depth < database.tableNames.length := by
  obtain ⟨last, hlast, hrevision⟩ := h
  have hplace := hlast.le_place (fun revision => database.place revision.table)
    (exists_revision_above hlisted hbuilt hself) (List.Subset.refl _)
    (List.forall_mem_singleton.mpr ⟨htable, Nat.zero_le _⟩) revision hrevision
  have hlt := place_lt_length hplace.1
  omega

/-- Rows whose keys do not fit break a constraint. -/
theorem violated_of_ofRows {schema : TableSchema} {rows : List Row} {error : SqlError}
    (h : SeenKeys.ofRows schema rows = .error error) : ∃ violation, error = .violated violation := by
  obtain ⟨row, -, seen, h⟩ := Check.exists_of_foldlM_eq_error h
  have huniques : ∀ {constraints seen}, SeenKeys.addUniques schema row constraints seen = .error error →
      ∃ violation, error = .violated violation := by
    intro constraints seen h
    induction constraints generalizing seen with
    | nil =>
      unfold SeenKeys.addUniques at h
      cases h
    | cons columns constraints ih =>
      cases seen with
      | nil => cases h
      | cons first seen =>
        rcases Check.bind_eq_error.mp h with hfirst | ⟨_, -, hrest⟩
        · grind [SeenKeys.addUnique]
        · rcases Check.bind_eq_error.mp hrest with hrest | ⟨_, -, hpure⟩
          · exact ih hrest
          · exact absurd hpure Check.pure_ne_error
  rcases Check.bind_eq_error.mp h with hnull | ⟨_, -, h⟩
  · grind [SeenKeys.checkNotNull]
  · rcases Check.bind_eq_error.mp h with hprimary | ⟨_, -, h⟩
    · grind [SeenKeys.addPrimary]
    · rcases Check.bind_eq_error.mp h with hunique | ⟨_, -, hpure⟩
      · exact huniques hunique
      · exact absurd hpure Check.pure_ne_error

theorem violated_of_checkReferences {foreignKey : ForeignKey} {parents rows : List Row}
    {error : SqlError} (h : checkReferences table foreignKey parents rows = .error error) :
    ∃ violation, error = .violated violation := by
  obtain ⟨row, -, h⟩ := Check.exists_of_forM_eq_error h
  split at h
  · cases h
  · split at h <;> cases h
    exact ⟨_, rfl⟩

/-- The checks of a table that is there find violations, and nothing that would block an UPDATE. -/
theorem not_refused_validate {error : ReferentialError} :
    ¬ Staging.Refused (validate database table) before (.blocked error) := by
  have htable : database.requireTable table ≠ .error (.blocked error) := by
    grind [Database.requireTable]
  have hkeys (schema : TableSchema) (rows : List Row) :
      SeenKeys.ofRows schema rows ≠ .error (.blocked error) := fun h => by
    simpa using violated_of_ofRows h
  have hforeign (table : Text) (rows : List Row) (schema : TableSchema) (staged : Scratch) :
      ¬ Staging.Refused (schema.foreignKeys.forM fun foreignKey => do
        let parents ← Staging.rows database foreignKey.refTable
        Staging.check (checkReferences table foreignKey parents rows)) staged (.blocked error) := by
    intro h
    obtain ⟨foreignKey, -, _, h⟩ := Staging.exists_of_refused_forM h
    simp only [Staging.refused_bind, Staging.refused_rows, Staging.refused_check, false_or] at h
    obtain ⟨_, _, -, h⟩ := h
    simpa using violated_of_checkReferences h
  simp only [validate, validateKeys, checkForeignKeys, Staging.refused_bind, Staging.refused_check,
    Staging.refused_rows, Staging.refused_pure, htable, hkeys, hforeign, and_false, exists_false,
    or_false, not_false_eq_true]

theorem restrictedUpdate_of_refused {revision : Revision} {child : Text} {foreignKey : ForeignKey}
    {error : SqlError}
    (h : Staging.Refused (answerUpdate database revision child foreignKey) before error) :
    ∃ rows, error = .blocked (.restrictedUpdate revision.table rows child (foreignKey.describe child)) := by
  simp only [answerUpdate, Staging.refused_bind, Staging.refused_rows, Staging.runs_rows,
    false_or] at h
  obtain ⟨_, _, ⟨rfl, rfl⟩, h⟩ := h
  split at h
  · exact absurd h Staging.refused_pure
  · split at h
    · exact ⟨_, (Staging.refused_throw.mp h).symm⟩
    · simp only [Staging.refused_bind, Staging.refused_setRows, Staging.refused_pure, and_false,
        exists_false, or_false] at h

theorem not_refused_spreadUpdate {revision : Revision} {references : List (Text × ForeignKey)}
    {write : Text} {bound : Int} :
    ¬ Staging.Refused (spreadUpdate database revision references) before
      (.blocked (.depthLimit write bound)) := by
  induction references generalizing before with
  | nil => exact Staging.refused_pure
  | cons reference references ih =>
    simp only [spreadUpdate, Staging.refused_bind, ih, Staging.refused_pure, and_false, exists_false,
      or_false]
    intro h
    simpa using restrictedUpdate_of_refused h

theorem not_refused_updateDepth {level : List Revision} {write : Text} {bound : Int} :
    ¬ Staging.Refused (updateDepth database level) before (.blocked (.depthLimit write bound)) := by
  induction level generalizing before with
  | nil => exact Staging.refused_pure
  | cons revision level ih =>
    simp only [updateDepth, Staging.refused_bind, not_refused_spreadUpdate, ih, Staging.refused_pure,
      and_false, exists_false, or_false, not_false_eq_true]

theorem depthLimit_of_refused_updateTables {level : List Revision} {write : Text} {bound : Int}
    (h : Staging.Refused (updateTables database limit depths level) before
      (.blocked (.depthLimit write bound))) : write = "UPDATE" ∧ bound = limit := by
  induction depths generalizing level before with
  | zero =>
    cases level with
    | nil => exact absurd h Staging.refused_pure
    | cons revision level =>
      cases Staging.refused_throw.mp h
      exact ⟨rfl, rfl⟩
  | succ depths ih =>
    cases level with
    | nil => exact absurd h Staging.refused_pure
    | cons revision level =>
      simp only [updateTables, Staging.refused_bind, not_refused_updateDepth, Staging.refused_pure,
        and_false, exists_false, or_false, false_or] at h
      obtain ⟨_, _, -, h⟩ := h
      exact ih h

/-- Only the cascades of an UPDATE come to the limit of the depth. -/
theorem refused_update_iff_updateTables {changes : List Change} {write : Text} {bound : Int} :
    Staging.Refused (update database limit table changes) .empty (.blocked (.depthLimit write bound)) ↔
      Staging.Refused (updateTables database limit (depthsWithin limit)
        (startOf database table changes).revisions) (startOf database table changes).staged
        (.blocked (.depthLimit write bound)) := by
  have hchecks (tables : List Text) (staged : Scratch) : ¬ Staging.Refused
      (tables.forM (validate database)) staged (.blocked (.depthLimit write bound)) := by
    intro h
    obtain ⟨_, -, _, h⟩ := Staging.exists_of_refused_forM h
    exact not_refused_validate h
  simp only [update, Staging.refused_bind, Staging.refused_rows, Staging.runs_rows,
    Staging.refused_setRows, Staging.runs_setRows, hchecks, Staging.refused_pure, and_false,
    exists_false, or_false, false_or]
  constructor
  · rintro ⟨_, _, ⟨rfl, rfl⟩, _, _, rfl, h⟩
    exact h
  · exact fun h => ⟨_, _, ⟨rfl, rfl⟩, (), _, rfl, h⟩

/-- The limit refuses an UPDATE exactly if a revision has a depth that is not allowed. -/
theorem refused_update_iff {changes : List Change} :
    Staging.Refused (update database limit table changes) .empty
        (.blocked (.depthLimit "UPDATE" limit)) ↔
      ∃ revision, RevisionAt database table changes (depthsWithin limit) revision := by
  rw [refused_update_iff_updateTables]
  refine refused_iff_item (fun depths level _ => updateTables database limit depths level)
    (fun h => (Staging.runs_pure.mp h).1) ?_ ?_ ?_ (List.Subset.refl _)
  · intro depths _ staged
    unfold updateTables
    exact Staging.refused_pure
  · rintro (_ | ⟨revision, level⟩) _ staged hlevel
    · exact absurd rfl hlevel
    · exact Staging.refused_throw.mpr rfl
  · rintro depths (_ | ⟨revision, level⟩) _ staged hlevel -
    · exact absurd rfl hlevel
    · simp only [updateTables, Staging.refused_bind, not_refused_updateDepth, Staging.refused_pure,
        and_false, exists_false, or_false, false_or]

end Integrity

/-! ## Statements -/

namespace Database

open Integrity (WaveAt RevisionAt depthsWithin)

variable {database : Database} {limit bound : Int} {write : Text}

theorem mem_tableNames_of_requireTable {table : Text} {schema : TableSchema}
    (hlisted : database.Listed) (h : database.requireTable table = .ok schema) :
    schema.name ∈ database.tableNames := by
  have hschema := requireTable_eq_ok.mp h
  rw [hlisted.named _ _ hschema]
  exact (OrderedMap.mem_names_iff ..).mpr ⟨schema, hschema⟩

theorem requireTable_ne_blocked {table : Text} {error : ReferentialError} :
    database.requireTable table ≠ .error (.blocked error) := by
  unfold requireTable
  split <;> simp

theorem requireColumn_ne_blocked {schema : TableSchema} {column : Text} {error : ReferentialError} :
    schema.requireColumn column ≠ .error (.blocked error) := by
  unfold TableSchema.requireColumn
  split <;> simp

/-- A DELETE that reaches the limit of the depth has a wave beyond it. -/
theorem exists_wave_of_delete (hlisted : database.Listed) {deletion : Delete}
    (h : database.delete limit deletion = .error (.rejected (.blocked (.depthLimit write bound)))) :
    ∃ table ∈ database.tableNames, ∃ positions wave,
      WaveAt database table positions (depthsWithin limit) wave := by
  rcases Check.bind_eq_error.mp h with htable | ⟨schema, hschema, h⟩
  · obtain ⟨_, heq, herror⟩ := Check.orFail_eq_error.mp htable
    cases heq
    exact absurd herror requireTable_ne_blocked
  · rw [Check.bind_pure_eq_error, publish_eq_error] at h
    obtain ⟨_, heq, hrefused⟩ := h
    cases heq
    rcases Integrity.of_refused_delete hrefused with hrestricted | hlimit
    · exact absurd rfl (hrestricted.ne_depthLimit write)
    · cases hlimit
      rw [Check.orFail_eq_ok] at hschema
      exact ⟨schema.name, mem_tableNames_of_requireTable hlisted hschema, _,
        Integrity.refused_delete_iff.mp hrefused⟩

/-- An UPDATE that reaches the limit of the depth has a revision beyond it. -/
theorem exists_revision_of_update (hlisted : database.Listed) {change : Update}
    (h : database.update limit change = .error (.rejected (.blocked (.depthLimit write bound)))) :
    ∃ table ∈ database.tableNames, ∃ changes revision,
      RevisionAt database table changes (depthsWithin limit) revision := by
  rcases Check.bind_eq_error.mp h with htable | ⟨schema, hschema, h⟩
  · obtain ⟨_, heq, herror⟩ := Check.orFail_eq_error.mp htable
    cases heq
    exact absurd herror requireTable_ne_blocked
  rcases Check.bind_eq_error.mp h with hcolumns | ⟨_, -, h⟩
  · obtain ⟨_, heq, herror⟩ := Check.orFail_eq_error.mp hcolumns
    cases heq
    obtain ⟨assignment, -, hcolumn⟩ := Check.exists_of_forM_eq_error herror
    exact absurd hcolumn requireColumn_ne_blocked
  rcases Check.bind_eq_error.mp h with hchanges | ⟨changes, -, h⟩
  · exact absurd (changesFrom_eq_error.mp hchanges).1 nofun
  rw [Check.bind_pure_eq_error, publish_eq_error] at h
  obtain ⟨_, heq, hrefused⟩ := h
  cases heq
  obtain ⟨rfl, rfl⟩ := Integrity.depthLimit_of_refused_updateTables
    (Integrity.refused_update_iff_updateTables.mp hrefused)
  rw [Check.orFail_eq_ok] at hschema
  exact ⟨schema.name, mem_tableNames_of_requireTable hlisted hschema, _,
    Integrity.refused_update_iff.mp hrefused⟩

/-- Where no table refers to itself, no wave of a DELETE and no revision of an UPDATE is as deep as
there are tables. A limit of one less than their number therefore refuses neither. -/
theorem cascades_within_tables (hreachable : database.Reachable) (hself : database.NoSelfReferences) :
    (∀ table ∈ database.tableNames,
      (∀ positions depth wave, WaveAt database table positions depth wave →
        depth < database.tableNames.length) ∧
      ∀ changes depth revision, RevisionAt database table changes depth revision →
        depth < database.tableNames.length) ∧
    ∀ limit : Int, (database.tableNames.length : Int) - 1 ≤ limit → ∀ write bound,
      (∀ deletion, database.delete limit deletion ≠
        .error (.rejected (.blocked (.depthLimit write bound)))) ∧
      ∀ change, database.update limit change ≠
        .error (.rejected (.blocked (.depthLimit write bound))) := by
  have hlisted := hreachable.listed
  have hbuilt := hreachable.wellBuilt
  refine ⟨fun table htable => ⟨fun _ _ _ h => h.depth_lt hlisted hbuilt hself htable,
    fun _ _ _ h => h.depth_lt hlisted hbuilt hself htable⟩, fun limit hlimit write bound => ?_⟩
  have hdepths : database.tableNames.length ≤ depthsWithin limit := by
    unfold Integrity.depthsWithin
    omega
  constructor
  · intro deletion h
    obtain ⟨table, htable, _, _, hwave⟩ := exists_wave_of_delete hlisted h
    exact absurd (hwave.depth_lt hlisted hbuilt hself htable) (Nat.not_lt.mpr hdepths)
  · intro change h
    obtain ⟨table, htable, _, _, hrevision⟩ := exists_revision_of_update hlisted h
    exact absurd (hrevision.depth_lt hlisted hbuilt hself htable) (Nat.not_lt.mpr hdepths)

theorem cascades_within_tables_league : league.Reachable ∧ league.NoSelfReferences ∧
    league.tableNames.length = 3 ∧ ∀ deletion write bound, league.delete 2 deletion ≠
      .error (.rejected (.blocked (.depthLimit write bound))) := by
  have hself : league.NoSelfReferences := by decide +kernel
  have hthree : league.tableNames.length = 3 := by decide +kernel
  have hlimit := (cascades_within_tables league_reachable hself).2 2 (by rw [hthree]; decide)
  exact ⟨league_reachable, hself, hthree, fun deletion write bound => (hlimit write bound).1 deletion⟩

end Database

end SnapshotSql
