import SnapshotSql.Proofs.Transitions

/-! # What the checks of keys guarantee

The keys seen so far are those of the rows checked so far, so a new key differs from all of them. Rows
that pass every check have complete primary keys, no null in a NOT NULL column, and no key twice. All
of this survives when rows are left out and when references are set to null.
-/
namespace SnapshotSql

/-- Two rows differ under some columns, unless one of them has a null there. -/
def Row.Apart (columns : List Text) (row other : Row) : Prop :=
  Key.hasNull (row.values columns) = false → Key.hasNull (other.values columns) = false →
    Key.ofValues (row.values columns) ≠ Key.ofValues (other.values columns)

/-- The rows of a table satisfy the constraints that its schema puts on them. -/
structure TableSchema.KeysHold (schema : TableSchema) (rows : List Row) : Prop where
  complete : ∀ row ∈ rows, ∀ column ∈ schema.primaryKey, (row.value column).isNull = false
  notNull : ∀ row ∈ rows, ∀ column ∈ schema.columns, column.notNull = true →
    (row.value column.name).isNull = false
  primary : schema.primaryKey ≠ [] → rows.Pairwise fun row other =>
    Key.ofValues (row.values schema.primaryKey) ≠ Key.ofValues (other.values schema.primaryKey)
  unique : ∀ columns ∈ schema.uniqueKeys, rows.Pairwise (Row.Apart columns)

/-! ## Keys seen so far -/

namespace SeenKeys

variable {schema : TableSchema} {rows : List Row} {row : Row} {seen next : SeenKeys}

/-- The keys are those of the rows, and no two rows have the same. -/
structure Tracks (columns : List Text) (rows : List Row) (keys : List Text) : Prop where
  seen : ∀ row ∈ rows, Key.hasNull (row.values columns) = false →
    Key.ofValues (row.values columns) ∈ keys
  apart : rows.Pairwise (Row.Apart columns)

/-- The keys after one more row, which has a null or a key that was not seen. -/
theorem Tracks.append {columns keys keys' : List Text} (h : Tracks columns rows keys)
    (hkeep : keys ⊆ keys') (hrow : Key.hasNull (row.values columns) = false →
      Key.ofValues (row.values columns) ∈ keys' ∧ Key.ofValues (row.values columns) ∉ keys) :
    Tracks columns (rows ++ [row]) keys' := by
  constructor
  · intro other hother hcomplete
    rcases List.mem_append.mp hother with hold | hlast
    · exact hkeep (h.seen other hold hcomplete)
    · rw [List.mem_singleton.mp hlast] at hcomplete ⊢
      exact (hrow hcomplete).1
  · refine List.pairwise_append.mpr ⟨h.apart, List.pairwise_singleton _ _, fun other hother last hlast => ?_⟩
    rw [List.mem_singleton.mp hlast]
    intro hcomplete hcomplete' heq
    have hseen := h.seen other hother hcomplete
    rw [heq] at hseen
    exact (hrow hcomplete').2 hseen

theorem Tracks.append_new {columns keys : List Text} (h : Tracks columns rows keys)
    (hnew : Key.ofValues (row.values columns) ∉ keys) :
    Tracks columns (rows ++ [row]) (Key.ofValues (row.values columns) :: keys) :=
  h.append (List.subset_cons_self _ _) fun _ => ⟨List.mem_cons_self, hnew⟩

theorem tracks_of_addUnique {columns keys keys' : List Text} (h : Tracks columns rows keys)
    (hadd : addUnique schema columns keys row = .ok keys') : Tracks columns (rows ++ [row]) keys' := by
  unfold addUnique at hadd
  dsimp only at hadd
  split at hadd
  · next hnull =>
    cases hadd
    refine h.append (List.Subset.refl _) fun hcomplete => ?_
    rw [hnull] at hcomplete
    cases hcomplete
  · split at hadd
    · cases hadd
    · next hnew =>
      cases hadd
      exact h.append_new (by simpa using hnew)

theorem tracks_of_addUniques {constraints seens seens' : List (List Text)}
    (h : List.Forall₂ (fun columns keys => Tracks columns rows keys) constraints seens)
    (hadd : addUniques schema row constraints seens = .ok seens') :
    List.Forall₂ (fun columns keys => Tracks columns (rows ++ [row]) keys) constraints seens' := by
  induction h generalizing seens' with
  | nil =>
    cases hadd
    exact List.Forall₂.nil
  | cons hfirst _ ih =>
    simp only [addUniques, Check.bind_eq_ok, Check.pure_eq_ok] at hadd
    obtain ⟨keys, hkeys, more, hmore, rfl⟩ := hadd
    exact List.Forall₂.cons (tracks_of_addUnique hfirst hkeys) (ih hmore)

/-- The rows checked so far satisfy the constraints, and their keys are the ones seen. -/
structure Checked (schema : TableSchema) (rows : List Row) (seen : SeenKeys) : Prop where
  complete : ∀ row ∈ rows, Key.hasNull (row.values schema.primaryKey) = false
  notNull : ∀ row ∈ rows, ∀ column ∈ schema.columns, column.notNull = true →
    (row.value column.name).isNull = false
  primary : schema.primaryKey ≠ [] → Tracks schema.primaryKey rows seen.primary
  unique : List.Forall₂ (fun columns keys => Tracks columns rows keys) schema.uniqueKeys seen.unique

theorem checked_none (schema : TableSchema) : Checked schema [] (none schema) := by
  refine ⟨nofun, nofun, fun _ => ⟨nofun, List.Pairwise.nil⟩, ?_⟩
  simp only [none, List.forall₂_map_right_iff]
  exact List.forall₂_same.mpr fun _ _ => ⟨nofun, List.Pairwise.nil⟩

theorem of_addPrimary {keys keys' : List Text} (hadd : addPrimary schema keys row = .ok keys') :
    Key.hasNull (row.values schema.primaryKey) = false ∧ (schema.primaryKey ≠ [] →
      Key.ofValues (row.values schema.primaryKey) ∉ keys ∧
        keys' = Key.ofValues (row.values schema.primaryKey) :: keys) := by
  unfold addPrimary at hadd
  dsimp only at hadd
  split at hadd
  · next hempty =>
    rw [List.isEmpty_iff] at hempty
    rw [hempty]
    exact ⟨rfl, fun hne => absurd rfl hne⟩
  · split at hadd
    · cases hadd
    · split at hadd
      · cases hadd
      · next hcomplete hnew =>
        cases hadd
        exact ⟨by simpa using hcomplete, fun _ => ⟨by simpa using hnew, rfl⟩⟩

theorem of_checkNotNull (h : checkNotNull schema row = .ok ()) : ∀ column ∈ schema.columns,
    column.notNull = true → (row.value column.name).isNull = false := by
  unfold checkNotNull at h
  split at h
  · cases h
  · next hnone =>
    intro column hmem hflag
    have hcolumn := List.find?_eq_none.mp hnone column hmem
    simpa [hflag] using hcolumn

/-- One more row that passes the checks. -/
theorem Checked.add (h : Checked schema rows seen) (hadd : seen.add schema row = .ok next) :
    Checked schema (rows ++ [row]) next := by
  simp only [SeenKeys.add, Check.bind_eq_ok, Check.pure_eq_ok] at hadd
  obtain ⟨_, hflags, primary, hprimary, unique, hunique, rfl⟩ := hadd
  obtain ⟨hcomplete, hnew⟩ := of_addPrimary hprimary
  refine ⟨?_, ?_, fun hkey => ?_, tracks_of_addUniques h.unique hunique⟩
  · exact List.forall_mem_append.mpr ⟨h.complete, List.forall_mem_singleton.mpr hcomplete⟩
  · exact List.forall_mem_append.mpr
      ⟨h.notNull, List.forall_mem_singleton.mpr (of_checkNotNull hflags)⟩
  · obtain ⟨hnotMem, rfl⟩ := hnew hkey
    exact (h.primary hkey).append_new hnotMem

theorem checked_of_foldlM {more : List Row} (h : Checked schema rows seen)
    (hadd : more.foldlM (SeenKeys.add schema) seen = .ok next) : Checked schema (rows ++ more) next := by
  induction more generalizing rows seen with
  | nil =>
    cases hadd
    rwa [List.append_nil]
  | cons row more ih =>
    rw [List.foldlM_cons] at hadd
    obtain ⟨middle, hrow, hmore⟩ := Check.bind_eq_ok.mp hadd
    rw [List.append_cons]
    exact ih (h.add hrow) hmore

theorem checked_of_ofRows (h : ofRows schema rows = .ok seen) : Checked schema rows seen := by
  simpa using checked_of_foldlM (checked_none schema) h

theorem Checked.keysHold (h : Checked schema rows seen) : schema.KeysHold rows := by
  refine ⟨fun row hrow => (Key.hasNull_values_eq_false_iff ..).mp (h.complete row hrow), h.notNull,
    fun hkey => ?_, fun columns hcolumns => ?_⟩
  · refine (h.primary hkey).apart.imp_of_mem fun {row other} hrow hother hapart => ?_
    exact hapart (h.complete row hrow) (h.complete other hother)
  · obtain ⟨position, hposition⟩ := List.mem_iff_getElem?.mp hcolumns
    obtain ⟨keys, -, htracks⟩ := Integrity.exists_right_of_forall₂ h.unique hposition
    exact htracks.apart

end SeenKeys

namespace TableSchema

variable {schema : TableSchema} {rows others : List Row}

/-! ## Rows left out and references set to null -/

theorem KeysHold.sublist (h : schema.KeysHold rows) (hsublist : others.Sublist rows) :
    schema.KeysHold others :=
  ⟨fun row hrow => h.complete row (hsublist.subset hrow),
    fun row hrow => h.notNull row (hsublist.subset hrow),
    fun hkey => (h.primary hkey).sublist hsublist,
    fun columns hcolumns => (h.unique columns hcolumns).sublist hsublist⟩

open Integrity in
theorem KeysHold.cleared {cause : ForeignKey → Text → Prop} (h : schema.KeysHold rows)
    (hbuilt : schema.WellBuilt) (hrows : List.Forall₂ (Cleared schema.foreignKeys cause) rows others) :
    schema.KeysHold others := by
  have hprimary : ∀ {row other}, Cleared schema.foreignKeys cause row other →
      other.values schema.primaryKey = row.values schema.primaryKey := fun hcleared =>
    Cleared.values_of_apart hcleared fun foreignKey hforeign hnull _ column hkey hcolumn =>
      (hbuilt.clearable foreignKey hforeign hnull column hcolumn).1 hkey
  have hbefore : ∀ other ∈ others, ∃ row ∈ rows, Cleared schema.foreignKeys cause row other := by
    intro other hother
    obtain ⟨position, hposition⟩ := List.mem_iff_getElem?.mp hother
    obtain ⟨row, hrow, hcleared⟩ := exists_left_of_forall₂ hrows hposition
    exact ⟨row, List.mem_of_getElem? hrow, hcleared⟩
  constructor
  · intro other hother
    obtain ⟨row, hrow, hcleared⟩ := hbefore other hother
    rw [← Key.hasNull_values_eq_false_iff, hprimary hcleared, Key.hasNull_values_eq_false_iff]
    exact h.complete row hrow
  · intro other hother column hcolumn hflag
    obtain ⟨row, hrow, hcleared⟩ := hbefore other hother
    rcases Cleared.get? hcleared column.name with hsame | ⟨foreignKey, hforeign, hnull, hmem, -⟩
    · rw [Row.value, hsame]
      exact h.notNull row hrow column hcolumn hflag
    · have hclear := (hbuilt.clearable foreignKey hforeign hnull column.name hmem).2 column hcolumn rfl
      rw [hclear] at hflag
      cases hflag
  · intro hkey
    refine pairwise_of_forall₂ hrows (fun hfirst hsecond hne => ?_) (h.primary hkey)
    rwa [hprimary hfirst, hprimary hsecond]
  · intro columns hcolumns
    refine pairwise_of_forall₂ hrows (fun hfirst hsecond hapart hcomplete hcomplete' => ?_)
      (h.unique columns hcolumns)
    have hfirst := Cleared.values_of_complete hfirst hcomplete
    have hsecond := Cleared.values_of_complete hsecond hcomplete'
    rw [hfirst] at hcomplete ⊢
    rw [hsecond] at hcomplete' ⊢
    exact hapart hcomplete hcomplete'

end TableSchema

end SnapshotSql
