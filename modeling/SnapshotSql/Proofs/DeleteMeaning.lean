import SnapshotSql.Proofs.DeleteEffects
import SnapshotSql.Proofs.Transitions
import Mathlib.Order.Bounds.Basic

/-! # The meaning of DELETE

A key is lost with a set of rows if some row holds it and all rows that do are in the set. A DELETE
removes the least set of rows that has the given ones and every row whose cascading reference is lost
with the set. Of the other rows it sets to null the references that are lost, where that is asked for,
and nothing else. No other reference is lost. This takes that no column is in two foreign keys of its
table, and that no reference set to null is itself referred to.
-/
namespace SnapshotSql

namespace Integrity

/-- A key of the rows that a foreign key points at is held by some row in the set and by no other. -/
def KeyLost (database : Database) (removed : Set (Text × Nat)) (foreignKey : ForeignKey)
    (key : Text) : Prop :=
  (∃ holder, Offers (database.tableRows foreignKey.refTable) foreignKey key holder ∧
      (foreignKey.refTable, holder) ∈ removed) ∧
    ∀ holder, Offers (database.tableRows foreignKey.refTable) foreignKey key holder →
      (foreignKey.refTable, holder) ∈ removed

def ReferenceLost (database : Database) (removed : Set (Text × Nat)) (foreignKey : ForeignKey)
    (row : Row) : Prop :=
  ∃ key, reference? foreignKey row = some key ∧ KeyLost database removed foreignKey key

/-- Every row whose cascading reference is lost with the set is in the set. -/
def CascadeClosed (database : Database) (removed : Set (Text × Nat)) : Prop :=
  ∀ child, ∀ foreignKey ∈ database.foreignKeys child, foreignKey.onDelete = .cascade →
    ∀ (position : Nat) (row : Row), (database.tableRows child)[position]? = some row →
      ReferenceLost database removed foreignKey row → (child, position) ∈ removed

def rowSet (positions : Text → List Nat) : Set (Text × Nat) :=
  {row | row.2 ∈ positions row.1}

/-- What is left of a row: the columns of its lost references are null where that is asked for, and
all other columns hold what they held. -/
structure LeftOver (database : Database) (removed : Set (Text × Nat)) (table : Text)
    (before after : Row) : Prop where
  names : after.names = before.names
  cleared : ∀ foreignKey ∈ database.foreignKeys table, foreignKey.onDelete = .setNull →
    ReferenceLost database removed foreignKey before →
      ∀ column ∈ foreignKey.columns, after.get? column = some .null
  kept : ∀ column, (∀ foreignKey ∈ database.foreignKeys table, foreignKey.onDelete = .setNull →
    ReferenceLost database removed foreignKey before → column ∉ foreignKey.columns) →
      after.get? column = before.get? column

/-- Some row of a table has lost a reference that is then set to null. -/
structure NullLost (database : Database) (removed : Set (Text × Nat)) (table : Text)
    (nulled : ForeignKey) : Prop where
  foreignKey_mem : nulled ∈ database.foreignKeys table
  action : nulled.onDelete = .setNull
  lost : ∃ row ∈ database.tableRows table, ReferenceLost database removed nulled row

/-- No column that the set brings to null is in another foreign key of its table. -/
def NullsApart (database : Database) (removed : Set (Text × Nat)) : Prop :=
  ∀ table nulled, NullLost database removed table nulled →
    ∀ foreignKey ∈ database.foreignKeys table, ∀ column ∈ foreignKey.columns,
      column ∈ nulled.columns → foreignKey = nulled

/-- No foreign key refers to a column that the set brings to null. -/
def KeysStay (database : Database) (removed : Set (Text × Nat)) : Prop :=
  ∀ table nulled, NullLost database removed table nulled →
    ∀ child, ∀ foreignKey ∈ database.foreignKeys child, foreignKey.refTable = table →
      ∀ column ∈ foreignKey.refColumns, column ∉ nulled.columns

end Integrity

namespace Database

def ColumnsApart (database : Database) : Prop :=
  ∀ table, ∀ foreignKey ∈ database.foreignKeys table, ∀ other ∈ database.foreignKeys table,
    ∀ column ∈ foreignKey.columns, column ∈ other.columns → foreignKey = other

/-- No foreign key refers to a column that a DELETE may set to null. -/
def ReferencesStay (database : Database) : Prop :=
  ∀ table, ∀ foreignKey ∈ database.foreignKeys table,
    ∀ nulled ∈ database.foreignKeys foreignKey.refTable, nulled.onDelete = .setNull →
      ∀ column ∈ foreignKey.refColumns, column ∉ nulled.columns

instance (database : Database) : Decidable database.ColumnsApart :=
  decidable_of_iff' _ forall_foreignKeys_iff

instance (database : Database) : Decidable database.ReferencesStay :=
  decidable_of_iff' _ forall_foreignKeys_iff

theorem ColumnsApart.nullsApart {database : Database} (h : database.ColumnsApart)
    (removed : Set (Text × Nat)) : Integrity.NullsApart database removed :=
  fun table nulled hnulled foreignKey hforeign =>
    h table foreignKey hforeign nulled hnulled.foreignKey_mem

theorem ReferencesStay.keysStay {database : Database} (h : database.ReferencesStay)
    (removed : Set (Text × Nat)) : Integrity.KeysStay database removed := by
  rintro table nulled hnulled child foreignKey hforeign rfl
  exact h child foreignKey hforeign nulled hnulled.foreignKey_mem hnulled.action

end Database

namespace Integrity

variable {database : Database} {first last : Progress} {question : Question Wave}
  {questions : List (Question Wave)} {removed : Set (Text × Nat)} {foreignKey : ForeignKey} {key : Text}

/-! ## Lost keys -/

/-- A larger set takes more keys away. -/
theorem KeyLost.mono {more : Set (Text × Nat)} (h : KeyLost database removed foreignKey key)
    (hsubset : removed ⊆ more) : KeyLost database more foreignKey key := by
  obtain ⟨⟨holder, hholder, hmem⟩, hall⟩ := h
  exact ⟨⟨holder, hholder, hsubset hmem⟩, fun other hother => hsubset (hall other hother)⟩

theorem NullLost.mono {more : Set (Text × Nat)} {table : Text} {nulled : ForeignKey}
    (h : NullLost database removed table nulled) (hsubset : removed ⊆ more) :
    NullLost database more table nulled := by
  obtain ⟨hmem, haction, row, hrow, key, href, hkey⟩ := h
  exact ⟨hmem, haction, row, hrow, key, href, hkey.mono hsubset⟩

/-- Where referred columns stay, cleared rows offer all keys that they have offered before. -/
theorem KeysStay.offers {child : Text} {others : List Row} {position : Nat}
    (hstay : KeysStay database removed) (hforeign : foreignKey ∈ database.foreignKeys child)
    (hrows : ClearedRows database (KeyLost database removed) foreignKey.refTable
      (database.tableRows foreignKey.refTable) others)
    (h : Offers (database.tableRows foreignKey.refTable) foreignKey key position) :
    Offers others foreignKey key position :=
  h.of_clearedRows (fun row hrow nulled hnulled hnull hlost =>
    hstay _ nulled ⟨hnulled, hnull, row, hrow, hlost⟩ child foreignKey hforeign rfl) hrows

/-- The keys that a question takes for lost are lost with any set that has the waves so far. -/
theorem Question.Asked.keyLost {before : Progress} {parents : List Row}
    (hstay : KeysStay database removed) (hasked : question.Asked database before)
    (hrows : RowsCleared database (KeyLost database removed) before)
    (hsubset : rowSet (doomed before.waves) ⊆ removed)
    (hparents : parents = database.tableRows question.about.table ∨
      parents = before.rows database question.about.table)
    (h : key ∈ lostKeys question.foreignKey parents question.about.positions
      (doomed before.waves question.about.table)) :
    KeyLost database removed question.foreignKey key := by
  have htable := hasked.refTable_eq
  rw [← htable] at hparents h
  obtain ⟨⟨holder, hholder, parent, hparent, hcomplete, hkey⟩, hall⟩ := (mem_lostKeys ..).mp h
  have hto : ∀ position,
      Offers (database.tableRows question.foreignKey.refTable) question.foreignKey key position →
        Offers parents question.foreignKey key position := by
    rcases hparents with rfl | rfl
    · exact fun _ h => h
    · exact fun _ h => hstay.offers hasked.foreignKey_mem (hrows _) h
  have hheld : Offers (database.tableRows question.foreignKey.refTable) question.foreignKey key
      holder := by
    have hoffers : Offers parents question.foreignKey key holder := ⟨parent, hparent, hkey⟩
    rcases hparents with rfl | rfl
    · exact hoffers
    · refine hoffers.of_cleared (hrows _) fun values hvalues => ?_
      rw [Key.hasNull_eq_of_ofValues_eq (hvalues.trans hkey.symm), hcomplete]
  have hdoomed : holder ∈ doomed before.waves question.foreignKey.refTable :=
    (mem_doomed ..).mpr ⟨question.about, hasked.wave_mem, htable.symm, hholder⟩
  constructor
  · exact ⟨holder, hheld, hsubset hdoomed⟩
  · intro other hother
    exact hsubset (hall other (hto other hother))

/-- A question concerns only rows whose reference is lost with the waves so far. -/
theorem Question.Asked.referenceLost {before : Progress} {parents : List Row}
    {position : Nat} (hstay : KeysStay database removed) (hasked : question.Asked database before)
    (hrows : RowsCleared database (KeyLost database removed) before)
    (hsubset : rowSet (doomed before.waves) ⊆ removed)
    (hparents : parents = database.tableRows question.about.table ∨
      parents = before.rows database question.about.table)
    (h : position ∈ question.affected database before parents) :
    ∃ row, (database.tableRows question.child)[position]? = some row ∧
      ReferenceLost database removed question.foreignKey row := by
  obtain ⟨-, row, key, hrow, href, hlost⟩ := (mem_referringTo ..).mp h
  obtain ⟨original, horiginal, hcleared⟩ := exists_left_of_forall₂ (hrows question.child) hrow
  have hreference := Cleared.reference_before hcleared href
  have hkey := hasked.keyLost hstay hrows hsubset hparents hlost
  exact ⟨original, horiginal, key, hreference, hkey⟩

/-- One step clears rows only of references that are lost with any set that has the waves so far. -/
theorem DeleteStep.rows_lost {before after : Progress} (hstay : KeysStay database removed)
    (h : DeleteStep database before question after)
    (hrows : RowsCleared database (KeyLost database removed) before)
    (hsubset : rowSet (doomed before.waves) ⊆ removed) :
    RowsCleared database (KeyLost database removed) after := fun table =>
  (hrows table).trans (h.rows_cleared
    (fun _ hparents _ hkey => h.asked.keyLost hstay hrows hsubset hparents hkey) table)

/-! ## The waves are the least closed set -/

/-- Every set that has the first waves and is closed under cascades has all waves. -/
theorem DeleteTrace.waves_subset (hstay : KeysStay database removed)
    (h : DeleteTrace database first questions last) (hstaged : first.staged = .empty)
    (hclosed : CascadeClosed database removed) (hfirst : rowSet (doomed first.waves) ⊆ removed) :
    rowSet (doomed last.waves) ⊆ removed ∧ RowsCleared database (KeyLost database removed) last := by
  refine h.invariant (fun progress => rowSet (doomed progress.waves) ⊆ removed ∧
    RowsCleared database (KeyLost database removed) progress) ?_ ⟨hfirst, rowsCleared_first hstaged⟩
  rintro state question next hstep ⟨hsubset, hrows⟩
  refine ⟨?_, hstep.rows_lost hstay hrows hsubset⟩
  obtain ⟨parents, hparents, hanswer⟩ := hstep.answer
  cases hanswer with
  | spare _ => exact hsubset
  | clear _ _ => exact hsubset
  | cascade _ haction =>
    rintro ⟨table, position⟩ hmem
    obtain ⟨wave, hwave, rfl, hposition⟩ := (mem_doomed ..).mp hmem
    rcases List.mem_append.mp hwave with hold | hnew
    · exact hsubset ((mem_doomed ..).mpr ⟨wave, hold, rfl, hposition⟩)
    · cases List.mem_singleton.mp hnew
      obtain ⟨row, hrow, hlost⟩ :=
        hstep.asked.referenceLost hstay hrows hsubset hparents hposition
      exact hclosed _ _ hstep.foreignKey_mem haction position row hrow hlost

/-! ## The rows that are left -/

/-- Rows are cleared only of references that are lost with the waves at the end. -/
theorem DeleteTrace.rows_lost_of_keysStay (hstay : KeysStay database removed)
    (h : DeleteTrace database first questions last) (hstaged : first.staged = .empty)
    (hsubset : rowSet (doomed last.waves) ⊆ removed) :
    RowsCleared database (KeyLost database removed) last := by
  refine h.invariant (fun progress => rowSet (doomed progress.waves) ⊆ removed →
    RowsCleared database (KeyLost database removed) progress) ?_
    (fun _ => rowsCleared_first hstaged) hsubset
  intro state question next hstep hbefore hsubset
  have hwaves : rowSet (doomed state.waves) ⊆ removed := by
    obtain ⟨parents, -, hanswer⟩ := hstep.answer
    exact fun row hrow => hsubset (doomed_subset hanswer.waves_prefix hrow)
  exact hstep.rows_lost hstay (hbefore hwaves) hwaves

section
variable {child : Text} {position : Nat} {row other : Row}

/-- A row that ends up with a lost reference is in the waves. -/
theorem DeleteTrace.doomed_of_keyLost_of_keysStay
    (hstay : KeysStay database (rowSet (doomed last.waves)))
    (h : DeleteTrace database first (last.waves.flatMap (Wave.questions database)) last)
    (hstaged : first.staged = .empty) (hforeign : foreignKey ∈ database.foreignKeys child)
    (hcolumns : foreignKey.onDelete = .setNull → foreignKey.columns ≠ [])
    (hlost : KeyLost database (rowSet (doomed last.waves)) foreignKey key)
    (hrow : (last.rows database child)[position]? = some row)
    (href : reference? foreignKey row = some key) : position ∈ doomed last.waves child := by
  obtain ⟨⟨holder, hholder, -⟩, hall⟩ := hlost
  refine doomed_of_reference h hstaged hforeign hcolumns ⟨holder, hholder⟩ (fun other hother => ?_)
    hrow href
  have hrows := DeleteTrace.rows_lost_of_keysStay hstay h hstaged subset_rfl foreignKey.refTable
  exact ⟨hall other hother, hstay.offers hforeign hrows hother⟩

/-- Only its own clearing changes the columns of a foreign key. -/
theorem Cleared.values_or_null (hapart : NullsApart database removed)
    (hforeign : foreignKey ∈ database.foreignKeys child) (hrow : row ∈ database.tableRows child)
    (h : Cleared (database.foreignKeys child) (KeyLost database removed) row other) :
    other.values foreignKey.columns = row.values foreignKey.columns ∨
      foreignKey.onDelete = .setNull ∧
        ∀ column ∈ foreignKey.columns, other.get? column = some .null := by
  by_cases hsame : ∀ column ∈ foreignKey.columns, other.get? column = row.get? column
  · exact Or.inl (List.map_congr_left fun column hmem => by simp only [Row.value, hsame column hmem])
  · push Not at hsame
    obtain ⟨column, hmem, hchanged⟩ := hsame
    rcases h.get? column with heq | ⟨clearing, hclearing, hnull, hmem', hlost, hcleared⟩
    · exact absurd heq hchanged
    · cases hapart child clearing ⟨hclearing, hnull, row, hrow, hlost⟩ foreignKey hforeign column hmem hmem'
      exact Or.inr ⟨hnull, hcleared⟩

section
variable (hapart : NullsApart database (rowSet (doomed last.waves)))
  (hstay : KeysStay database (rowSet (doomed last.waves)))
  (h : DeleteTrace database first (last.waves.flatMap (Wave.questions database)) last)
  (hstaged : first.staged = .empty)
include hapart hstay h hstaged

/-- Every row that has lost a reference which cannot be set to null is in the waves. -/
theorem DeleteTrace.doomed_of_referenceLost (hforeign : foreignKey ∈ database.foreignKeys child)
    (haction : foreignKey.onDelete ≠ .setNull)
    (hrow : (database.tableRows child)[position]? = some row)
    (hlost : ReferenceLost database (rowSet (doomed last.waves)) foreignKey row) :
    position ∈ doomed last.waves child := by
  obtain ⟨key, href, hlost⟩ := hlost
  obtain ⟨other, hother, hcleared⟩ :=
    exists_right_of_forall₂ (DeleteTrace.rows_lost_of_keysStay hstay h hstaged subset_rfl child) hrow
  rcases Cleared.values_or_null hapart hforeign (List.mem_of_getElem? hrow) hcleared with
    hsame | ⟨hnull, -⟩
  · rw [← reference?_congr hsame] at href
    exact h.doomed_of_keyLost_of_keysStay hstay hstaged hforeign (fun hnull => absurd hnull haction)
      hlost hother href
  · exact absurd hnull haction

theorem DeleteTrace.cascadeClosed_of_nullsApart :
    CascadeClosed database (rowSet (doomed last.waves)) := by
  intro child foreignKey hforeign haction position row hrow hlost
  have hcascade : foreignKey.onDelete ≠ .setNull := by simp [haction]
  exact h.doomed_of_referenceLost hapart hstay hstaged hforeign hcascade hrow hlost

theorem DeleteTrace.leftOver_of_nullsApart (hposition : position ∉ doomed last.waves child)
    (hrow : (database.tableRows child)[position]? = some row)
    (hother : (last.rows database child)[position]? = some other) :
    LeftOver database (rowSet (doomed last.waves)) child row other := by
  obtain ⟨other', hother', hcleared⟩ :=
    exists_right_of_forall₂ (DeleteTrace.rows_lost_of_keysStay hstay h hstaged subset_rfl child) hrow
  rw [hother] at hother'
  cases hother'
  refine ⟨Cleared.names hcleared, ?_, ?_⟩
  · rintro foreignKey hforeign - ⟨key, href, hlost⟩ column hcolumn
    rcases Cleared.values_or_null hapart hforeign (List.mem_of_getElem? hrow) hcleared with
      hsame | ⟨-, hnull⟩
    · rw [← reference?_congr hsame] at href
      exact absurd (h.doomed_of_keyLost_of_keysStay hstay hstaged hforeign
        (fun _ => List.ne_nil_of_mem hcolumn) hlost hother href) hposition
    · exact hnull column hcolumn
  · intro column hkept
    rcases Cleared.get? hcleared column with hsame | ⟨clearing, hclearing, hnull, hcolumn, hlost, -⟩
    · exact hsame
    · exact absurd hcolumn (hkept clearing hclearing hnull hlost)

end

/-! ## Schemas that keep such columns apart -/

theorem DeleteTrace.waves_least (hstay : database.ReferencesStay)
    (h : DeleteTrace database first questions last) (hstaged : first.staged = .empty)
    (hclosed : CascadeClosed database removed) (hfirst : rowSet (doomed first.waves) ⊆ removed) :
    rowSet (doomed last.waves) ⊆ removed :=
  (DeleteTrace.waves_subset (hstay.keysStay _) h hstaged hclosed hfirst).1

theorem DeleteTrace.rows_lost (hstay : database.ReferencesStay)
    (h : DeleteTrace database first questions last) (hstaged : first.staged = .empty)
    (hsubset : rowSet (doomed last.waves) ⊆ removed) :
    RowsCleared database (KeyLost database removed) last :=
  DeleteTrace.rows_lost_of_keysStay (hstay.keysStay _) h hstaged hsubset

theorem DeleteTrace.doomed_of_keyLost (hstay : database.ReferencesStay)
    (h : DeleteTrace database first (last.waves.flatMap (Wave.questions database)) last)
    (hstaged : first.staged = .empty) (hforeign : foreignKey ∈ database.foreignKeys child)
    (hcolumns : foreignKey.onDelete = .setNull → foreignKey.columns ≠ [])
    (hlost : KeyLost database (rowSet (doomed last.waves)) foreignKey key)
    (hrow : (last.rows database child)[position]? = some row)
    (href : reference? foreignKey row = some key) : position ∈ doomed last.waves child :=
  h.doomed_of_keyLost_of_keysStay (hstay.keysStay _) hstaged hforeign hcolumns hlost hrow href

theorem DeleteTrace.cascadeClosed (hapart : database.ColumnsApart) (hstay : database.ReferencesStay)
    (h : DeleteTrace database first (last.waves.flatMap (Wave.questions database)) last)
    (hstaged : first.staged = .empty) : CascadeClosed database (rowSet (doomed last.waves)) :=
  h.cascadeClosed_of_nullsApart (hapart.nullsApart _) (hstay.keysStay _) hstaged

theorem DeleteTrace.leftOver (hapart : database.ColumnsApart) (hstay : database.ReferencesStay)
    (h : DeleteTrace database first (last.waves.flatMap (Wave.questions database)) last)
    (hstaged : first.staged = .empty) (hposition : position ∉ doomed last.waves child)
    (hrow : (database.tableRows child)[position]? = some row)
    (hother : (last.rows database child)[position]? = some other) :
    LeftOver database (rowSet (doomed last.waves)) child row other :=
  h.leftOver_of_nullsApart (hapart.nullsApart _) (hstay.keysStay _) hstaged hposition hrow hother

end

/-! ## The meaning -/

/-- A DELETE that is not refused answers the number of the given rows. It removes the least closed set
with these rows; what is left of each table are the other rows in their order, changed only where a
lost reference may be set to null; and no RESTRICT reference is lost. -/
theorem delete_exact {next : Database} {limit : Int} {table : Text} {positions : List Nat} {count : Nat}
    (hapart : database.ColumnsApart) (hstay : database.ReferencesStay)
    (h : database.publish (delete database limit table positions) = .ok (count, next)) :
    count = positions.length ∧ ∃ removed : Text → List Nat,
      IsLeast {rows | (∀ position ∈ positions, (table, position) ∈ rows) ∧ CascadeClosed database rows}
        (rowSet removed) ∧
      (∀ other, List.Forall₂ (LeftOver database (rowSet removed) other)
        (rowsExcept (database.tableRows other) (removed other)) (next.tableRows other)) ∧
      ∀ child, ∀ foreignKey ∈ database.foreignKeys child, foreignKey.onDelete = .restrict →
        ∀ row ∈ next.tableRows child, ¬ ReferenceLost database (rowSet removed) foreignKey row := by
  obtain ⟨scratch, hruns, rfl⟩ := Database.publish_eq_ok.mp h
  obtain ⟨hcount, last, -, htrace, hrows⟩ := trace_of_delete hruns
  refine ⟨hcount, doomed last.waves, ⟨⟨fun position hposition => ?_, ?_⟩, ?_⟩, fun other => ?_, ?_⟩
  · exact doomed_subset (DeleteTrace.waves_prefix htrace)
      ((mem_doomed ..).mpr ⟨_, List.mem_singleton_self _, rfl, hposition⟩)
  · exact htrace.cascadeClosed hapart hstay rfl
  · rintro rows ⟨hgiven, hclosed⟩
    refine DeleteTrace.waves_least hstay htrace rfl hclosed ?_
    rintro ⟨other, position⟩ hmem
    obtain ⟨wave, hwave, rfl, hposition⟩ := (mem_doomed ..).mp hmem
    cases List.mem_singleton.mp hwave
    exact hgiven position hposition
  · rw [Database.tableRows_commit, hrows]
    exact forall₂_rowsExcept (DeleteTrace.rows_lost hstay htrace rfl subset_rfl other).length_eq
      fun position row left hposition hrow hleft => htrace.leftOver hapart hstay rfl hposition hrow hleft
  · rintro child foreignKey hforeign haction row hrow ⟨key, href, hlost⟩
    rw [Database.tableRows_commit, hrows, mem_rowsExcept] at hrow
    obtain ⟨position, hposition, hleft⟩ := hrow
    exact hleft (htrace.doomed_of_keyLost hstay rfl hforeign (by simp [haction]) hlost hposition href)

/-- Deleting the first team of the league takes its player along and clears the note on the player. -/
theorem delete_exact_league : ∃ count next,
    Database.league.publish (delete Database.league 64 "team" [0]) = .ok (count, next) ∧ count = 1 ∧
      ∃ removed : Text → List Nat,
        IsLeast {rows | (∀ position ∈ [0], (Text.ofString "team", position) ∈ rows) ∧
          CascadeClosed Database.league rows} (rowSet removed) ∧
        List.Forall₂ (LeftOver Database.league (rowSet removed) "note")
          (rowsExcept (Database.league.tableRows "note") (removed "note")) (next.tableRows "note") := by
  have hok : (Database.league.publish (delete Database.league 64 "team" [0])).isOk = true := by
    decide +kernel
  obtain ⟨⟨count, next⟩, h⟩ := Check.exists_of_isOk hok
  obtain ⟨hcount, removed, hleast, hrows, -⟩ := delete_exact (by decide +kernel) (by decide +kernel) h
  exact ⟨count, next, h, hcount, removed, hleast, hrows "note"⟩

end Integrity

end SnapshotSql
