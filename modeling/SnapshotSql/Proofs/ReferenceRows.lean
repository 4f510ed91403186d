import SnapshotSql.Proofs.KeyText
import SnapshotSql.Proofs.SuccessfulRuns
import Mathlib.Data.List.Forall2
import Mathlib.Logic.Relation

/-! # Rows, references and the changes that cascades make to rows

The positions that a cascade selects and the rows that it changes or leaves out are told by membership
and by position. A row is cleared when some of its references that may be set to null have been: it
keeps its columns, and each of its values is as before or null.
-/
namespace SnapshotSql

def Database.foreignKeys (database : Database) (table : Text) : List ForeignKey :=
  match database.schemas.get? table with
  | some schema => schema.foreignKeys
  | none => []

theorem Database.mem_foreignKeys (database : Database) (table : Text) (foreignKey : ForeignKey) :
    foreignKey ∈ database.foreignKeys table ↔
      ∃ schema, database.schemas.get? table = some schema ∧ foreignKey ∈ schema.foreignKeys := by
  unfold foreignKeys
  cases database.schemas.get? table <;> simp

theorem Database.foreignKeys_eq_nil {database : Database} {table : Text}
    (h : table ∉ database.tableNames) : database.foreignKeys table = [] := by
  refine List.eq_nil_iff_forall_not_mem.mpr fun foreignKey hmem => h ?_
  obtain ⟨schema, hschema, -⟩ := (mem_foreignKeys ..).mp hmem
  exact (OrderedMap.mem_names_iff ..).mpr ⟨schema, hschema⟩

/-- Only the tables that are there have foreign keys. -/
theorem Database.forall_foreignKeys_iff {database : Database} {holds : Text → ForeignKey → Prop} :
    (∀ table, ∀ foreignKey ∈ database.foreignKeys table, holds table foreignKey) ↔
      ∀ table ∈ database.tableNames, ∀ foreignKey ∈ database.foreignKeys table, holds table foreignKey := by
  refine ⟨fun h table _ => h table, fun h table foreignKey hmem => h table ?_ foreignKey hmem⟩
  obtain ⟨schema, hschema, -⟩ := (mem_foreignKeys ..).mp hmem
  exact (OrderedMap.mem_names_iff ..).mpr ⟨schema, hschema⟩

theorem Database.mem_referencing (database : Database) (table child : Text) (foreignKey : ForeignKey) :
    (child, foreignKey) ∈ database.referencing table ↔
      foreignKey ∈ database.foreignKeys child ∧ foreignKey.refTable = table := by
  simp only [referencing, List.mem_flatMap, List.mem_map, List.mem_filter, decide_eq_true_eq]
  constructor
  · rintro ⟨⟨name, schema⟩, hmem, other, ⟨hother, htable⟩, heq⟩
    cases heq
    rw [OrderedMap.mem_entries_iff] at hmem
    exact ⟨(mem_foreignKeys ..).mpr ⟨schema, hmem, hother⟩, htable⟩
  · rintro ⟨hmem, htable⟩
    obtain ⟨schema, hget, hforeign⟩ := (mem_foreignKeys ..).mp hmem
    exact ⟨(child, schema), (OrderedMap.mem_entries_iff ..).mpr hget, foreignKey, ⟨hforeign, htable⟩, rfl⟩

namespace Key

theorem hasNull_eq_false_iff (values : List Scalar) :
    hasNull values = false ↔ ∀ value ∈ values, value.isNull = false := by
  simp [hasNull]

theorem hasNull_values_eq_false_iff (row : Row) (columns : List Text) :
    hasNull (row.values columns) = false ↔ ∀ column ∈ columns, (row.value column).isNull = false := by
  simp [hasNull_eq_false_iff, Row.values]

end Key

namespace Integrity

/-! ## References of a row -/

theorem reference?_eq_some_iff (foreignKey : ForeignKey) (row : Row) (key : Text) :
    reference? foreignKey row = some key ↔
      Key.hasNull (row.values foreignKey.columns) = false ∧
        Key.ofValues (row.values foreignKey.columns) = key := by
  unfold reference?
  cases h : Key.hasNull (row.values foreignKey.columns) <;> simp [h]

theorem reference?_congr {foreignKey : ForeignKey} {row other : Row}
    (h : row.values foreignKey.columns = other.values foreignKey.columns) :
    reference? foreignKey row = reference? foreignKey other := by
  simp only [reference?, h]

/-- A key that a row refers to is the key of complete values only. -/
theorem complete_of_reference {foreignKey : ForeignKey} {row : Row} {key : Text}
    (href : reference? foreignKey row = some key) (values : List Scalar)
    (hkey : Key.ofValues values = key) : Key.hasNull values = false := by
  obtain ⟨hcomplete, hrow⟩ := (reference?_eq_some_iff ..).mp href
  rw [Key.hasNull_eq_of_ofValues_eq (hkey.trans hrow.symm), hcomplete]

/-- The row of a table at a position offers a key to a foreign key. -/
def Offers (rows : List Row) (foreignKey : ForeignKey) (key : Text) (position : Nat) : Prop :=
  ∃ row, rows[position]? = some row ∧ Key.ofValues (row.values foreignKey.refColumns) = key

theorem mem_offeredKeys (foreignKey : ForeignKey) (rows : List Row) (key : Text) :
    key ∈ offeredKeys foreignKey rows ↔ ∃ position, Offers rows foreignKey key position := by
  simp only [offeredKeys, List.mem_map, Offers]
  constructor
  · rintro ⟨row, hrow, hkey⟩
    obtain ⟨position, hposition⟩ := List.mem_iff_getElem?.mp hrow
    exact ⟨position, row, hposition, hkey⟩
  · rintro ⟨position, row, hposition, hkey⟩
    exact ⟨row, List.mem_of_getElem? hposition, hkey⟩

/-- Every row has a null among the columns of the foreign key, or one of the parents has its key. -/
def Matched (foreignKey : ForeignKey) (parents rows : List Row) : Prop :=
  ∀ row ∈ rows, Key.hasNull (row.values foreignKey.columns) = true ∨ ∃ parent ∈ parents,
    Key.ofValues (parent.values foreignKey.refColumns) = Key.ofValues (row.values foreignKey.columns)

instance (foreignKey : ForeignKey) (parents rows : List Row) :
    Decidable (Matched foreignKey parents rows) :=
  inferInstanceAs (Decidable (∀ row ∈ rows, _ ∨ ∃ parent ∈ parents, _))

theorem matched_iff {foreignKey : ForeignKey} {parents rows : List Row} :
    Matched foreignKey parents rows ↔ ∀ row ∈ rows, ∀ key, reference? foreignKey row = some key →
      ∃ position, Offers parents foreignKey key position := by
  refine forall₂_congr fun row _ => ?_
  simp only [reference?_eq_some_iff, ← mem_offeredKeys]
  cases hnull : Key.hasNull (row.values foreignKey.columns) <;> simp [offeredKeys]

theorem Matched.mono {foreignKey : ForeignKey} {parents more rows : List Row}
    (h : Matched foreignKey parents rows) (hsubset : parents ⊆ more) : Matched foreignKey more rows :=
  fun row hrow => (h row hrow).imp_right fun ⟨parent, hparent, hkey⟩ => ⟨parent, hsubset hparent, hkey⟩

/-! ## Rows by position -/

section
variable {α β : Type} {related : α → β → Prop} {rows : List α} {others : List β} {position : Nat}

theorem forall₂_iff_getElem? : List.Forall₂ related rows others ↔
    rows.length = others.length ∧ ∀ (position : Nat) (row : α) (other : β),
      rows[position]? = some row → others[position]? = some other → related row other := by
  rw [List.forall₂_iff_get]
  refine and_congr_right fun hlength => ⟨fun h position row other hrow hother => ?_, fun h position h₁ h₂ => ?_⟩
  · obtain ⟨h₁, rfl⟩ := List.getElem?_eq_some_iff.mp hrow
    obtain ⟨h₂, rfl⟩ := List.getElem?_eq_some_iff.mp hother
    exact h position h₁ h₂
  · exact h position _ _ (List.getElem?_eq_getElem h₁) (List.getElem?_eq_getElem h₂)

theorem exists_right_of_forall₂ (h : List.Forall₂ related rows others) {row : α}
    (hrow : rows[position]? = some row) :
    ∃ other, others[position]? = some other ∧ related row other := by
  obtain ⟨hlength, hrelated⟩ := forall₂_iff_getElem?.mp h
  have hlt := (List.getElem?_eq_some_iff.mp hrow).1
  have hother := List.getElem?_eq_getElem (hlength ▸ hlt)
  exact ⟨_, hother, hrelated _ _ _ hrow hother⟩

theorem exists_left_of_forall₂ (h : List.Forall₂ related rows others) {other : β}
    (hother : others[position]? = some other) :
    ∃ row, rows[position]? = some row ∧ related row other := by
  obtain ⟨hlength, hrelated⟩ := forall₂_iff_getElem?.mp h
  have hlt := (List.getElem?_eq_some_iff.mp hother).1
  have hrow := List.getElem?_eq_getElem (hlength ▸ hlt)
  exact ⟨_, hrow, hrelated _ _ _ hrow hother⟩

theorem forall₂_trans {related : α → α → Prop} {rows middle others : List α}
    (htrans : ∀ {first second third}, related first second → related second third → related first third)
    (h : List.Forall₂ related rows middle) (h' : List.Forall₂ related middle others) :
    List.Forall₂ related rows others := by
  refine forall₂_iff_getElem?.mpr
    ⟨h.length_eq.trans h'.length_eq, fun position row other hrow hother => ?_⟩
  obtain ⟨between, hbetween, hfirst⟩ := exists_right_of_forall₂ h hrow
  obtain ⟨between', hbetween', hsecond⟩ := exists_left_of_forall₂ h' hother
  rw [hbetween] at hbetween'
  cases hbetween'
  exact htrans hfirst hsecond

/-- A relation between all pairs of rows is carried over to the related rows. -/
theorem pairwise_of_forall₂ {pair : α → α → Prop} {pair' : β → β → Prop}
    (h : List.Forall₂ related rows others)
    (hpair : ∀ {first second first' second'}, related first first' → related second second' →
      pair first second → pair' first' second')
    (hrows : rows.Pairwise pair) : others.Pairwise pair' := by
  induction h with
  | nil => exact List.Pairwise.nil
  | cons hfirst hrest ih =>
    obtain ⟨hrow, hrows⟩ := List.pairwise_cons.mp hrows
    refine List.pairwise_cons.mpr ⟨fun other hother => ?_, ih hrows⟩
    obtain ⟨position, hposition⟩ := List.mem_iff_getElem?.mp hother
    obtain ⟨second, hsecond, hrelated⟩ := exists_left_of_forall₂ hrest hposition
    exact hpair hfirst hrelated (hrow second (List.mem_of_getElem? hsecond))

end

theorem mem_doomed (waves : List Wave) (table : Text) (position : Nat) :
    position ∈ doomed waves table ↔ ∃ wave ∈ waves, wave.table = table ∧ position ∈ wave.positions := by
  simp [doomed, and_assoc]

theorem mem_rowsAt (rows : List Row) (positions : List Nat) (row : Row) :
    row ∈ rowsAt rows positions ↔ ∃ position ∈ positions, rows[position]? = some row := by
  simp [rowsAt]

theorem mem_rowsExcept (rows : List Row) (positions : List Nat) (row : Row) :
    row ∈ rowsExcept rows positions ↔ ∃ position, rows[position]? = some row ∧ position ∉ positions := by
  simp only [rowsExcept, List.mem_map, List.mem_filter, Prod.exists, List.mem_zipIdx_iff_getElem?]
  simp

theorem rowsExcept_sublist (rows : List Row) (positions : List Nat) :
    (rowsExcept rows positions).Sublist rows := by
  have h := (List.filter_sublist (l := rows.zipIdx) (p := fun x => !positions.contains x.2)).map (·.1)
  simpa [rowsExcept, List.zipIdx_map_fst] using h

section
variable {related : Row → Row → Prop} {rows others : List Row}

private theorem forall₂_filter_zipIdx {positions : List Nat} {rows others : List Row} (start : Nat)
    (hlength : rows.length = others.length)
    (h : ∀ (position : Nat) (row other : Row), position + start ∉ positions →
      rows[position]? = some row → others[position]? = some other → related row other) :
    List.Forall₂ related (((rows.zipIdx start).filter (!positions.contains ·.2)).map (·.1))
      (((others.zipIdx start).filter (!positions.contains ·.2)).map (·.1)) := by
  induction rows generalizing others start with
  | nil =>
    cases List.eq_nil_of_length_eq_zero hlength.symm
    exact List.Forall₂.nil
  | cons row rows ih =>
    obtain ⟨other, others, rfl⟩ := List.exists_cons_of_length_eq_add_one hlength.symm
    have htail : rows.length = others.length := by simpa using hlength
    have hrest := ih (start + 1) htail
      fun position row other hmem hrow hother =>
        h (position + 1) row other (by rwa [Nat.add_assoc, Nat.add_comm 1]) hrow hother
    by_cases hmem : start ∈ positions
    · simpa [List.zipIdx_cons, hmem] using hrest
    · have hfirst : related row other := h 0 row other (by simpa using hmem) rfl rfl
      simpa [List.zipIdx_cons, hmem, hfirst] using hrest

/-- If rows are related at all positions but some, then so are the rows without those. -/
theorem forall₂_rowsExcept {positions : List Nat} (hlength : rows.length = others.length)
    (h : ∀ (position : Nat) (row other : Row), position ∉ positions →
      rows[position]? = some row → others[position]? = some other → related row other) :
    List.Forall₂ related (rowsExcept rows positions) (rowsExcept others positions) :=
  forall₂_filter_zipIdx 0 hlength h

end

theorem length_changeAt (rows : List Row) (positions : List Nat) (change : Row → Row) :
    (changeAt rows positions change).length = rows.length := by
  simp [changeAt]

theorem getElem?_changeAt (rows : List Row) (positions : List Nat) (change : Row → Row)
    (position : Nat) :
    (changeAt rows positions change)[position]? =
      rows[position]?.map fun row => if position ∈ positions then change row else row := by
  simp only [changeAt, List.getElem?_map, List.getElem?_zipIdx, Option.map_map, Function.comp_def,
    Nat.zero_add, List.contains_iff_mem]

/-- Rows are related to the changed ones if each changed row is and the relation is reflexive. -/
theorem forall₂_changeAt {related : Row → Row → Prop} {rows : List Row} {positions : List Nat}
    {change : Row → Row} (hrefl : ∀ row, related row row)
    (hchange : ∀ position ∈ positions, ∀ row, rows[position]? = some row → related row (change row)) :
    List.Forall₂ related rows (changeAt rows positions change) := by
  refine forall₂_iff_getElem?.mpr ⟨(length_changeAt ..).symm, fun position row other hrow hother => ?_⟩
  rw [getElem?_changeAt, hrow] at hother
  cases hother
  by_cases hmem : position ∈ positions
  · simpa [hmem] using hchange position hmem row hrow
  · simpa [hmem] using hrefl row

theorem mem_referringTo (foreignKey : ForeignKey) (keys : List Text) (rows : List Row)
    (leftOut : List Nat) (position : Nat) :
    position ∈ referringTo foreignKey keys rows leftOut ↔
      position ∉ leftOut ∧ ∃ row key, rows[position]? = some row ∧
        reference? foreignKey row = some key ∧ key ∈ keys := by
  simp only [referringTo, List.mem_map, List.mem_filter, Prod.exists, List.mem_zipIdx_iff_getElem?,
    Bool.and_eq_true, Bool.not_eq_true', List.contains_eq_mem, decide_eq_false_iff_not,
    Option.any_eq_true, decide_eq_true_eq]
  constructor
  · rintro ⟨row, _, ⟨hrow, hleft, key, href, hkey⟩, rfl⟩
    exact ⟨hleft, row, key, hrow, href, hkey⟩
  · rintro ⟨hleft, row, key, hrow, href, hkey⟩
    exact ⟨row, position, ⟨hrow, hleft, key, href, hkey⟩, rfl⟩

/-- A key is lost to a wave if a row of the wave offers it and no row outside all waves does. -/
theorem mem_lostKeys (foreignKey : ForeignKey) (parents : List Row) (wave doomedParents : List Nat)
    (key : Text) :
    key ∈ lostKeys foreignKey parents wave doomedParents ↔
      (∃ position ∈ wave, ∃ row, parents[position]? = some row ∧
        Key.hasNull (row.values foreignKey.refColumns) = false ∧
        Key.ofValues (row.values foreignKey.refColumns) = key) ∧
      ∀ position, Offers parents foreignKey key position → position ∈ doomedParents := by
  have hkept : key ∉ offeredKeys foreignKey (rowsExcept parents doomedParents) ↔
      ∀ position, Offers parents foreignKey key position → position ∈ doomedParents := by
    simp only [offeredKeys, List.mem_map, mem_rowsExcept]
    constructor
    · rintro h position ⟨row, hrow, hkey⟩
      by_contra hmem
      exact h ⟨row, ⟨position, hrow, hmem⟩, hkey⟩
    · rintro h ⟨row, ⟨position, hrow, hmem⟩, hkey⟩
      exact hmem (h position ⟨row, hrow, hkey⟩)
  have hgoing : key ∈ offeredKeys foreignKey ((rowsAt parents wave).filter fun row =>
        !Key.hasNull (row.values foreignKey.refColumns)) ↔
      ∃ position ∈ wave, ∃ row, parents[position]? = some row ∧
        Key.hasNull (row.values foreignKey.refColumns) = false ∧
        Key.ofValues (row.values foreignKey.refColumns) = key := by
    simp only [offeredKeys, List.mem_map, List.mem_filter, mem_rowsAt, Bool.not_eq_true']
    constructor
    · rintro ⟨row, ⟨⟨position, hwave, hrow⟩, hnull⟩, hkey⟩
      exact ⟨position, hwave, row, hrow, hnull, hkey⟩
    · rintro ⟨position, hwave, row, hrow, hnull, hkey⟩
      exact ⟨row, ⟨⟨position, hwave, hrow⟩, hnull⟩, hkey⟩
  simp only [lostKeys, List.mem_filter, hgoing, Bool.not_eq_true', List.contains_eq_mem,
    decide_eq_false_iff_not, hkept]

/-! ## Clearing references -/

theorem get?_nullOut (foreignKey : ForeignKey) (row : Row) (column : Text) :
    (nullOut foreignKey row).get? column =
      if column ∈ foreignKey.columns then some .null else row.get? column := by
  unfold nullOut
  induction foreignKey.columns generalizing row with
  | nil => simp
  | cons name columns ih =>
    rw [List.foldl_cons, ih, OrderedMap.get?_insert]
    by_cases hmem : column ∈ columns
    · simp [hmem]
    · simp [hmem, List.mem_cons]

theorem names_nullOut {foreignKey : ForeignKey} {row : Row}
    (h : ∀ column ∈ foreignKey.columns, column ∈ row.names) :
    (nullOut foreignKey row).names = row.names := by
  unfold nullOut
  generalize foreignKey.columns = columns at h ⊢
  induction columns generalizing row with
  | nil => rfl
  | cons name columns ih =>
    have hnames := OrderedMap.names_insert_of_mem row .null (h name (by simp))
    rw [List.foldl_cons, ih fun column hmem => hnames ▸ h column (by simp [hmem]), hnames]

theorem reference?_nullOut {foreignKey : ForeignKey} (hcolumns : foreignKey.columns ≠ []) (row : Row) :
    reference? foreignKey (nullOut foreignKey row) = none := by
  obtain ⟨column, hcolumn⟩ := List.exists_mem_of_ne_nil _ hcolumns
  cases href : reference? foreignKey (nullOut foreignKey row) with
  | none => rfl
  | some key =>
    have hcomplete := ((reference?_eq_some_iff ..).mp href).1
    rw [Key.hasNull_values_eq_false_iff] at hcomplete
    have hvalue := hcomplete column hcolumn
    simp [Row.value, get?_nullOut, hcolumn, Scalar.isNull] at hvalue

/-- One reference of a row that may be set to null is, for a key of the given kind. -/
def ClearStep (foreignKeys : List ForeignKey) (cause : ForeignKey → Text → Prop)
    (before after : Row) : Prop :=
  ∃ foreignKey ∈ foreignKeys, foreignKey.onDelete = .setNull ∧
    (∃ key, reference? foreignKey before = some key ∧ cause foreignKey key) ∧
    after = nullOut foreignKey before

/-- Some references of a row have been set to null, one after the other. -/
abbrev Cleared (foreignKeys : List ForeignKey) (cause : ForeignKey → Text → Prop) : Row → Row → Prop :=
  Relation.ReflTransGen (ClearStep foreignKeys cause)

section
variable {foreignKeys : List ForeignKey} {cause cause' : ForeignKey → Text → Prop} {before after : Row}

theorem Cleared.mono (hcause : ∀ foreignKey key, cause foreignKey key → cause' foreignKey key)
    (h : Cleared foreignKeys cause before after) : Cleared foreignKeys cause' before after := by
  refine Relation.ReflTransGen.mono ?_ before after h
  rintro row next ⟨foreignKey, hmem, hnull, ⟨key, href, hkey⟩, rfl⟩
  exact ⟨foreignKey, hmem, hnull, ⟨key, href, hcause _ _ hkey⟩, rfl⟩

theorem ClearStep.get? (h : ClearStep foreignKeys cause before after) (column : Text) :
    after.get? column = before.get? column ∨ after.get? column = some .null := by
  obtain ⟨foreignKey, -, -, -, rfl⟩ := h
  rw [get?_nullOut]
  split
  · exact Or.inr rfl
  · exact Or.inl rfl

theorem Cleared.value (h : Cleared foreignKeys cause before after) (column : Text) :
    after.value column = before.value column ∨ after.value column = .null := by
  induction h with
  | refl => exact Or.inl rfl
  | tail _ hstep ih =>
    rcases hstep.get? column with hsame | hnull
    · simpa only [Row.value, hsame] using ih
    · exact Or.inr (by rw [Row.value, hnull, Option.getD_some])

/-- A list of values without a null was there before. -/
theorem Cleared.values_of_complete (h : Cleared foreignKeys cause before after) {columns : List Text}
    (hcomplete : Key.hasNull (after.values columns) = false) :
    after.values columns = before.values columns := by
  rw [Key.hasNull_values_eq_false_iff] at hcomplete
  refine List.map_congr_left fun column hmem => ?_
  rcases h.value column with hsame | hnull
  · exact hsame
  · have hvalue := hcomplete column hmem
    simp [hnull, Scalar.isNull] at hvalue

theorem Cleared.reference_before (h : Cleared foreignKeys cause before after) {foreignKey : ForeignKey}
    {key : Text} (href : reference? foreignKey after = some key) :
    reference? foreignKey before = some key := by
  have hcomplete := ((reference?_eq_some_iff ..).mp href).1
  rw [← href]
  exact reference?_congr (h.values_of_complete hcomplete).symm

/-- What a cleared row holds under a column: the value before, or null by one of the references. -/
theorem Cleared.get? (h : Cleared foreignKeys cause before after) (column : Text) :
    after.get? column = before.get? column ∨
      ∃ foreignKey ∈ foreignKeys, foreignKey.onDelete = .setNull ∧ column ∈ foreignKey.columns ∧
        (∃ key, reference? foreignKey before = some key ∧ cause foreignKey key) ∧
        ∀ cleared ∈ foreignKey.columns, after.get? cleared = some .null := by
  induction h with
  | refl => exact Or.inl rfl
  | @tail middle next hbefore hstep ih =>
    obtain ⟨foreignKey, hmem, hnull, ⟨key, href, hcause⟩, rfl⟩ := hstep
    have hfirst := Cleared.reference_before hbefore href
    by_cases hcolumn : column ∈ foreignKey.columns
    · refine Or.inr ⟨foreignKey, hmem, hnull, hcolumn, ⟨key, hfirst, hcause⟩, fun cleared hcleared => ?_⟩
      rw [get?_nullOut, if_pos hcleared]
    · rw [get?_nullOut, if_neg hcolumn]
      rcases ih with hsame | ⟨other, hother, hnull', hcolumn', hkey, hcleared⟩
      · exact Or.inl hsame
      · refine Or.inr ⟨other, hother, hnull', hcolumn', hkey, fun cleared hmem' => ?_⟩
        rw [get?_nullOut, hcleared cleared hmem']
        split <;> rfl

theorem Cleared.names (h : Cleared foreignKeys cause before after) : after.names = before.names := by
  induction h with
  | refl => rfl
  | tail _ hstep ih =>
    obtain ⟨foreignKey, -, -, ⟨key, href, -⟩, rfl⟩ := hstep
    have hcomplete := ((reference?_eq_some_iff ..).mp href).1
    rw [Key.hasNull_values_eq_false_iff] at hcomplete
    rw [names_nullOut fun column hmem => Row.mem_names_of_value (hcomplete column hmem), ih]

/-- Values that no reference to be set to null can reach are as before. -/
theorem Cleared.values_of_apart (h : Cleared foreignKeys cause before after) {columns : List Text}
    (hapart : ∀ foreignKey ∈ foreignKeys, foreignKey.onDelete = .setNull →
      (∃ key, reference? foreignKey before = some key ∧ cause foreignKey key) →
        ∀ column ∈ columns, column ∉ foreignKey.columns) :
    after.values columns = before.values columns := by
  refine List.map_congr_left fun column hmem => ?_
  rcases h.get? column with hsame | ⟨foreignKey, hforeign, hnull, hcolumn, hlost, -⟩
  · simp only [Row.value, hsame]
  · exact absurd hcolumn (hapart foreignKey hforeign hnull hlost column hmem)

end

end Integrity

end SnapshotSql
