import SnapshotSql.Proofs.CountedColumns
import SnapshotSql.Proofs.ExactKeys
import SnapshotSql.Proofs.FailedRuns
import SnapshotSql.Proofs.KeyInvariant
import SnapshotSql.Proofs.OverflowingCasts
import SnapshotSql.Proofs.StoredValues

/-! # Counters rise

A counting column that a tuple leaves out gets one more than the greatest integer among the rows staged so far.
So the numbers of one INSERT rise, and all are greater than the integers that were stored before. Besides integers
the column may hold nulls and floats without an integer part, and a key writes no such value as it writes an
integer. Hence a counted number makes the primary key it belongs to a new one.
-/
namespace SnapshotSql

/-! ## Parts of keys that only integers have -/

namespace Key

/-- What an INT column may hold is written like an integer only if it is this integer. -/
theorem eq_int_of_part {value : Scalar} (hfits : ColumnType.int.Fits value) {number : Int}
    (h : part value = part (.int number)) : value = .int number := by
  obtain ⟨chars, heq, -, hchars⟩ := Numeral.wholeText_isNumeral number
  have hletter : ∀ letter : Char, Numeral.isNumeral letter = false → .char letter ∉ part value := by
    intro letter hletter hmem
    rw [show part value = Text.ofChars chars from h.trans heq] at hmem
    obtain ⟨c, hc, hcode⟩ := List.mem_map.mp hmem
    cases hcode
    rw [hchars letter hc] at hletter
    cases hletter
  cases value with
  | null => exact absurd (by decide) (hletter 'n' (by decide))
  | int other => rw [Numeral.wholeText_injective h]
  | bool other => exact hfits.elim
  | text chars => exact hfits.elim
  | float other =>
    cases other with
    | finite => cases hfits
    | nan => exact absurd (by decide) (hletter 'N' (by decide))
    | infinite negative =>
      refine absurd ?_ (hletter 'I' (by decide))
      cases negative <;> decide

end Key

/-! ## Numbers that count on -/

namespace Integrity

open Staging

variable {database : Database} {table : Text} {schema : TableSchema} {seen : SeenKeys} {column : Column}
  {row : Row} {rows staged inserted : List Row} {after : Scratch}

/-- The rows as they are stored behind those that are staged: each counts on from all rows in front of it. -/
def filledRows (schema : TableSchema) : List Row → List Row → List Row
  | _, [] => []
  | staged, row :: rows =>
      let stored := fillCounters schema staged row
      stored :: filledRows schema (staged ++ [stored]) rows

theorem inserted_eq_filledRows
    (h : Runs (insertRows database schema table seen rows) (only table staged) inserted after) :
    inserted = filledRows schema staged rows := by
  induction rows generalizing seen staged inserted with
  | nil =>
    obtain ⟨rfl, -⟩ := runs_pure.mp h
    rfl
  | cons row rows ih =>
    obtain ⟨next, rest, -, hrest, rfl⟩ := runs_insertRows_cons.mp h
    rw [filledRows, ih hrest]

theorem lt_nextValue {name : Text} {number : Int} (hrow : row ∈ staged) (hvalue : row.value name = .int number) :
    number < nextValue staged name := by
  unfold nextValue
  extract_lets ints
  have hmem : number ∈ ints := List.mem_filterMap.mpr ⟨row, hrow, by rw [hvalue]⟩
  cases hmax : ints.max? with
  | none =>
    rw [List.max?_eq_none_iff.mp hmax] at hmem
    cases hmem
  | some greatest =>
    have hle : number ≤ greatest := (List.max?_eq_some_iff.mp hmax).2 number hmem
    rw [Option.getD_some]
    omega

/-- The rows hold integers under a name, each greater than those before it and than all integers stored. -/
def CountsOn (stored : List Row) (name : Text) (rows : List Row) : Prop :=
  ∃ numbers : List Int, rows.map (·.value name) = numbers.map .int ∧ numbers.Pairwise (· < ·) ∧
    ∀ row ∈ stored, ∀ number, row.value name = .int number → ∀ counted ∈ numbers, number < counted

/-- Rows without a value in a counting column count on. -/
theorem countsOn_filledRows (hcolumn : column ∈ schema.columns) (hcounts : column.autoIncrement = true)
    (hnull : ∀ row ∈ rows, (row.value column.name).isNull = true) (staged : List Row) :
    CountsOn staged column.name (filledRows schema staged rows) := by
  induction rows generalizing staged with
  | nil => exact ⟨[], rfl, List.Pairwise.nil, nofun⟩
  | cons row rows ih =>
    obtain ⟨hrow, hrest⟩ := List.forall_mem_cons.mp hnull
    have hvalue : (fillCounters schema staged row).value column.name = .int (nextValue staged column.name) :=
      value_fillCounters hcolumn hcounts hrow
    obtain ⟨numbers, hnumbers, hrise, habove⟩ := ih hrest (staged ++ [fillCounters schema staged row])
    obtain ⟨hstaged, hstored⟩ := List.forall_mem_append.mp habove
    refine ⟨nextValue staged column.name :: numbers, ?_, ?_, ?_⟩
    · rw [filledRows, List.map_cons, hvalue, hnumbers, List.map_cons]
    · exact List.pairwise_cons.mpr ⟨hstored _ (List.mem_singleton_self _) _ hvalue, hrise⟩
    · intro other hother number hnumber
      exact List.forall_mem_cons.mpr ⟨lt_nextValue hother hnumber, hstaged other hother number hnumber⟩

end Integrity

/-! ## Primary keys that are new -/

namespace SeenKeys

variable {schema : TableSchema} {rows more : List Row} {row : Row} {seen next : SeenKeys} {shown name : Text}

/-- Every primary key that was seen is the one of a row. -/
def PrimaryOf (schema : TableSchema) (rows : List Row) (seen : SeenKeys) : Prop :=
  ∀ key ∈ seen.primary, ∃ row ∈ rows, Key.ofValues (row.values schema.primaryKey) = key

theorem primaryOf_none (schema : TableSchema) (rows : List Row) : PrimaryOf schema rows (none schema) :=
  nofun

theorem PrimaryOf.add (h : PrimaryOf schema rows seen) (hadd : seen.add schema row = .ok next) :
    PrimaryOf schema (rows ++ [row]) next := by
  simp only [SeenKeys.add, Check.bind_eq_ok, Check.pure_eq_ok] at hadd
  obtain ⟨_, -, primary, hprimary, _, -, rfl⟩ := hadd
  have hold : ∀ key ∈ seen.primary,
      ∃ other ∈ rows ++ [row], Key.ofValues (other.values schema.primaryKey) = key := by
    intro key hkey
    obtain ⟨other, hother, heq⟩ := h key hkey
    exact ⟨other, List.mem_append_left _ hother, heq⟩
  by_cases hempty : schema.primaryKey = []
  · have hsame : primary = seen.primary := by simpa [addPrimary, hempty] using hprimary.symm
    rw [PrimaryOf, hsame]
    exact hold
  · obtain ⟨-, rfl⟩ := (of_addPrimary hprimary).2 hempty
    exact List.forall_mem_cons.mpr ⟨⟨row, List.mem_append_right _ (List.mem_singleton_self row), rfl⟩, hold⟩

theorem primaryOf_of_foldlM (h : PrimaryOf schema rows seen)
    (hadd : more.foldlM (SeenKeys.add schema) seen = .ok next) : PrimaryOf schema (rows ++ more) next := by
  induction more generalizing rows seen with
  | nil =>
    cases hadd
    rwa [List.append_nil]
  | cons row more ih =>
    rw [List.foldlM_cons] at hadd
    obtain ⟨middle, hrow, hmore⟩ := Check.bind_eq_ok.mp hadd
    rw [List.append_cons]
    exact ih (h.add hrow) hmore

theorem addUniques_ne_repeated {constraints seens : List (List Text)} :
    addUniques schema row constraints seens ≠ .error (.violated (.repeatedPrimaryKey shown name)) := by
  induction constraints generalizing seens with
  | nil => exact Check.pure_ne_error
  | cons columns constraints ih =>
    cases seens with
    | nil => exact Check.pure_ne_error
    | cons keys seens =>
      intro h
      rw [addUniques] at h
      rcases Check.bind_eq_error.mp h with hfirst | ⟨_, -, hrest⟩
      · unfold addUnique at hfirst
        dsimp only at hfirst
        split at hfirst
        · cases hfirst
        · split at hfirst <;> cases hfirst
      · exact ih (Check.bind_pure_eq_error.mp hrest)

/-- The primary key of a row is reported as repeated only if an earlier row has it. -/
theorem PrimaryOf.exists_of_repeated (h : PrimaryOf schema rows seen)
    (hadd : seen.add schema row = .error (.violated (.repeatedPrimaryKey shown name))) : schema.primaryKey ≠ [] ∧
      ∃ other ∈ rows, Key.ofValues (other.values schema.primaryKey) = Key.ofValues (row.values schema.primaryKey) := by
  rw [SeenKeys.add] at hadd
  rcases Check.bind_eq_error.mp hadd with hnull | ⟨_, -, hadd⟩
  · unfold checkNotNull at hnull
    split at hnull <;> cases hnull
  rcases Check.bind_eq_error.mp hadd with hprimary | ⟨_, -, hadd⟩
  · unfold addPrimary at hprimary
    dsimp only at hprimary
    split at hprimary
    · cases hprimary
    · next hkey =>
      split at hprimary
      · cases hprimary
      · split at hprimary
        · next hseen =>
          exact ⟨by simpa using hkey, h _ (by simpa using hseen)⟩
        · cases hprimary
  · exact absurd (Check.bind_pure_eq_error.mp hadd) addUniques_ne_repeated

/-- Rows with different primary keys are not found to repeat one. -/
theorem foldlM_ne_repeated (h : PrimaryOf schema rows seen)
    (hapart : schema.primaryKey ≠ [] → (rows ++ more).Pairwise fun row other =>
      Key.ofValues (row.values schema.primaryKey) ≠ Key.ofValues (other.values schema.primaryKey)) :
    more.foldlM (SeenKeys.add schema) seen ≠ .error (.violated (.repeatedPrimaryKey shown name)) := by
  induction more generalizing rows seen with
  | nil => exact Check.pure_ne_error
  | cons row more ih =>
    intro hadd
    rw [List.append_cons] at hapart
    rw [List.foldlM_cons] at hadd
    rcases Check.bind_eq_error.mp hadd with hrow | ⟨next, hrow, hmore⟩
    · obtain ⟨hkey, other, hother, hsame⟩ := h.exists_of_repeated hrow
      have hfront := (List.pairwise_append.mp (hapart hkey)).1
      exact (List.pairwise_append.mp hfront).2.2 other hother row (List.mem_singleton_self row) hsame
    · exact ih (h.add hrow) hapart hmore

end SeenKeys

namespace Integrity

open Staging

variable {database : Database} {table : Text} {schema : TableSchema} {seen : SeenKeys} {column : Column}
  {row : Row} {rows staged : List Row} {before : Scratch} {shown name : Text}

theorem not_repeated_checkForeignKeys :
    ¬ Refused (checkForeignKeys database table rows) before (.violated (.repeatedPrimaryKey shown name)) := by
  have htable : database.requireTable table ≠ .error (.violated (.repeatedPrimaryKey shown name)) := by
    grind [Database.requireTable]
  have hreference (foreignKey : ForeignKey) (parents : List Row) : checkReferences table foreignKey parents rows ≠
      .error (.violated (.repeatedPrimaryKey shown name)) := by
    intro h
    obtain ⟨row, -, h⟩ := Check.exists_of_forM_eq_error h
    split at h
    · cases h
    · split at h <;> cases h
  intro h
  simp only [checkForeignKeys, refused_bind, refused_check, htable, false_or] at h
  obtain ⟨found, middle, -, h⟩ := h
  obtain ⟨foreignKey, -, _, h⟩ := exists_of_refused_forM h
  simp only [refused_bind, refused_rows, refused_check, false_or] at h
  obtain ⟨parents, _, -, h⟩ := h
  exact hreference foreignKey parents h

/-- A counted number makes a primary key that no staged row has. -/
theorem ofValues_ne_of_counted (hcolumn : column ∈ schema.columns) (hcounts : column.autoIncrement = true)
    (hkey : column.name ∈ schema.primaryKey) (hnull : (row.value column.name).isNull = true)
    (hfits : ∀ other ∈ staged, ColumnType.int.Fits (other.value column.name)) :
    ∀ other ∈ staged, Key.ofValues (other.values schema.primaryKey) ≠
      Key.ofValues ((fillCounters schema staged row).values schema.primaryKey) := by
  intro other hother hsame
  have hparts := (Key.ofValues_eq_iff _ _).mp hsame
  rw [Row.values, Row.values, List.map_map, List.map_map] at hparts
  have hpart : Key.part (other.value column.name) = Key.part (.int (nextValue staged column.name)) := by
    rw [← value_fillCounters hcolumn hcounts hnull]
    exact List.map_inj_left.mp hparts column.name hkey
  have hvalue := Key.eq_int_of_part (hfits other hother) hpart
  exact absurd (lt_nextValue hother hvalue) (lt_irrefl _)

/-- Rows that count in a column of the primary key are not refused for repeating one. -/
theorem not_repeated_insertRows (hcolumn : column ∈ schema.columns) (hcounts : column.autoIncrement = true)
    (hkey : column.name ∈ schema.primaryKey) (hnull : ∀ row ∈ rows, (row.value column.name).isNull = true)
    (hfits : ∀ other ∈ staged, ColumnType.int.Fits (other.value column.name))
    (hseen : SeenKeys.PrimaryOf schema staged seen) :
    ¬ Refused (insertRows database schema table seen rows) (only table staged)
      (.violated (.repeatedPrimaryKey shown name)) := by
  induction rows generalizing staged seen with
  | nil => exact refused_pure
  | cons row rows ih =>
    obtain ⟨hrow, hrest⟩ := List.forall_mem_cons.mp hnull
    have hfilled : (fillCounters schema staged row).value column.name = .int (nextValue staged column.name) :=
      value_fillCounters hcolumn hcounts hrow
    have hadd : seen.add schema (fillCounters schema staged row) ≠
        .error (.violated (.repeatedPrimaryKey shown name)) := by
      intro hrepeated
      obtain ⟨-, other, hother, hsame⟩ := hseen.exists_of_repeated hrepeated
      exact ofValues_ne_of_counted hcolumn hcounts hkey hrow hfits other hother hsame
    have hfirst : ¬ Refused (insertRow database schema table seen row) (only table staged)
        (.violated (.repeatedPrimaryKey shown name)) := by
      simp only [insertRow, refused_bind, refused_rows, runs_rows, refused_check, refused_setRows,
        refused_pure, not_repeated_checkForeignKeys, and_false, exists_false, or_false, false_or]
      rintro ⟨_, _, ⟨rfl, rfl⟩, hrepeated⟩
      rw [rowsIn_only_self] at hrepeated
      exact hadd hrepeated
    intro h
    simp only [insertRows, refused_bind, hfirst, false_or, refused_pure, and_false, exists_false, or_false,
      Prod.exists, runs_insertRow_only] at h
    obtain ⟨next, stored, _, ⟨rfl, hrow', rfl⟩, h⟩ := h
    refine ih hrest ?_ (hseen.add hrow'.keys) h
    refine List.forall_mem_append.mpr ⟨hfits, List.forall_mem_singleton.mpr ?_⟩
    rw [hfilled]
    trivial

end Integrity

namespace Database

open Staging Integrity

variable {database : Database} {schema : TableSchema} {column : Column} {insertion : Insert} {limit : Int}

/-! ## Tuples that leave a column out -/

/-- Every tuple of an INSERT leaves a column out or has a null for it. -/
def LeavesOut (schema : TableSchema) (insertion : Insert) (name : Text) : Prop :=
  ∀ tuple ∈ insertion.rows, ∀ value,
    (name, value) ∈ (insertColumns schema insertion.columns tuple.length).zip tuple → value = .null

theorem isNull_castRow (hnodup : schema.columnNames.Nodup) (hcolumn : column ∈ schema.columns)
    {entries : List (Text × Scalar)} (hnull : ∀ value, (column.name, value) ∈ entries → value = .null) {row : Row}
    (h : castRow schema.columns (.ofList entries) = .ok row) : (row.value column.name).isNull = true := by
  cases hsource : (OrderedMap.ofList entries).get? column.name with
  | none =>
    have hnone : row.get? column.name = none := get?_castColumns_of_none h hsource
    rw [Row.value, hnone]
    rfl
  | some source =>
    obtain ⟨value, hcast, hvalue⟩ := get?_castColumns h hnodup hcolumn hsource
    rcases OrderedMap.mem_of_get?_foldl_insert hsource with hlisted | hfalse
    · rw [hnull source hlisted] at hcast
      cases hcast
      rw [Row.value, hvalue]
      rfl
    · cases hfalse

theorem isNull_typedRows (hnodup : schema.columnNames.Nodup) (hcolumn : column ∈ schema.columns)
    {listed : Option (List Text)} {tuples : List (List Scalar)} {number : Nat} {typed : List Row}
    (hleft : ∀ tuple ∈ tuples, ∀ value,
      (column.name, value) ∈ (insertColumns schema listed tuple.length).zip tuple → value = .null)
    (h : typedRows schema listed number tuples = .ok typed) :
    ∀ row ∈ typed, (row.value column.name).isNull = true := by
  induction tuples generalizing number typed with
  | nil =>
    cases h
    nofun
  | cons tuple tuples ih =>
    obtain ⟨hfirst, hlater⟩ := List.forall_mem_cons.mp hleft
    obtain ⟨row, rest, -, hrow, hrest, rfl⟩ := typedRows_cons_eq_ok.mp h
    exact List.forall_mem_cons.mpr ⟨isNull_castRow hnodup hcolumn hfirst hrow, ih hlater hrest⟩

theorem length_typedRows {listed : Option (List Text)} {tuples : List (List Scalar)} {number : Nat} {typed : List Row}
    (h : typedRows schema listed number tuples = .ok typed) : typed.length = tuples.length := by
  induction tuples generalizing number typed with
  | nil =>
    cases h
    rfl
  | cons tuple tuples ih =>
    obtain ⟨row, rest, -, -, hrest, rfl⟩ := typedRows_cons_eq_ok.mp h
    rw [List.length_cons, List.length_cons, ih hrest]

/-! ## Rejections before a row is inserted -/

theorem exists_of_checkInsertColumns_eq_error {listed : Option (List Text)} {error : SqlError}
    (h : checkInsertColumns schema listed = .error error) : ∃ complaint, error = .invalidSchema complaint := by
  cases listed with
  | none => exact absurd h Check.pure_ne_error
  | some columns =>
    rcases Check.bind_eq_error.mp h with hmissing | ⟨_, -, hrepeated⟩
    · obtain ⟨name, -, hname⟩ := Check.exists_of_forM_eq_error hmissing
      unfold TableSchema.requireColumn at hname
      split at hname
      · cases hname
      · cases hname
        exact ⟨_, rfl⟩
    · split at hrepeated
      · cases hrepeated
        exact ⟨_, rfl⟩
      · cases hrepeated

theorem exists_of_typedRows_eq_rejected {listed : Option (List Text)} {tuples : List (List Scalar)} {number : Nat}
    {error : SqlError} (h : typedRows schema listed number tuples = .error (.rejected error)) :
    ∃ complaint, error = .invalidSchema complaint := by
  have hcast (columns : List Column) (row : Row) : castRow columns row ≠ .error (.rejected error) := by
    intro h
    cases (castRow_eq_error.mp h).1
  induction tuples generalizing number with
  | nil => exact absurd h Check.pure_ne_error
  | cons tuple tuples ih =>
    rw [typedRows] at h
    dsimp only at h
    split at h
    · cases h
      exact ⟨_, rfl⟩
    · rcases Check.bind_eq_error.mp h with hrow | ⟨_, -, h⟩
      · exact absurd hrow (hcast _ _)
      · exact ih (Check.bind_pure_eq_error.mp h)

/-! ## Inserting -/

theorem not_isView_of_counts (h : database.Reachable) {table : Text}
    (hfound : database.schemas.get? table = some schema) (hcolumn : column ∈ schema.columns)
    (hcounts : column.autoIncrement = true) : schema.isView = false := by
  cases hview : schema.isView with
  | false => rfl
  | true =>
    obtain ⟨result, rfl⟩ := h.viewsMade table schema hfound hview
    obtain ⟨name, -, rfl⟩ := List.mem_map.mp hcolumn
    cases hcounts

/-- Unless a cascading reference may copy to it, a counting column holds what fits INT. -/
theorem int_fits_of_counts (h : database.Reachable) {table : Text} (hfound : database.schemas.get? table = some schema)
    (hcolumn : column ∈ schema.columns) (hcounts : column.autoIncrement = true)
    (hfree : ∀ foreignKey ∈ schema.foreignKeys, foreignKey.onUpdate = .cascade → column.name ∉ foreignKey.columns) :
    ∀ row ∈ database.tableRows table, ColumnType.int.Fits (row.value column.name) := by
  intro row hrow
  have hview := not_isView_of_counts h hfound hcolumn hcounts
  have hbuilt := h.wellBuilt.schema table schema hfound
  rcases h.valuesAdmitted table row hrow column.name with hnull | hadmits
  · rw [hnull]
    trivial
  · obtain ⟨found, hmem, hname, hfits | ⟨foreignKey, hforeign, haction, refName, hnames, -⟩⟩ :=
      hadmits.fits_or_copied h.wellBuilt hfound hview
    · have hsame : found = column := List.inj_on_of_nodup_map (hbuilt.names hview) hmem hcolumn hname
      rw [hsame, hbuilt.counters column hcolumn hcounts] at hfits
      exact hfits
    · exact absurd (List.of_mem_zip hnames).1 (hfree foreignKey hforeign haction)

/-- An INSERT that violates a constraint is refused while its typed rows are inserted. -/
theorem exists_refused_of_insert_eq_violated (hfound : database.schemas.get? insertion.table = some schema)
    {violation : ConstraintError} (h : database.insert insertion = .error (.rejected (.violated violation))) :
    ∃ typed, typedRows schema insertion.columns 1 insertion.rows = .ok typed ∧
      Refused (Integrity.insert database schema.name typed) .empty (.violated violation) := by
  have hrequired : orFail (database.requireTable insertion.table) = .ok schema :=
    Check.orFail_eq_ok.mpr (requireTable_eq_ok.mpr hfound)
  rw [insert, hrequired] at h
  rcases Check.bind_eq_error.mp h with hmissing | ⟨_, heq, h⟩
  · cases hmissing
  cases heq
  rcases Check.bind_eq_error.mp h with hcolumns | ⟨_, -, h⟩
  · obtain ⟨_, heq, herror⟩ := Check.orFail_eq_error.mp hcolumns
    obtain ⟨_, rfl⟩ := exists_of_checkInsertColumns_eq_error herror
    cases heq
  rcases Check.bind_eq_error.mp h with htyping | ⟨typed, htyped, h⟩
  · obtain ⟨_, heq⟩ := exists_of_typedRows_eq_rejected htyping
    cases heq
  rcases Check.bind_eq_error.mp h with hpublish | ⟨⟨inserted, next⟩, -, hanswer⟩
  · obtain ⟨_, heq, hrefused⟩ := publish_eq_error.mp hpublish
    cases heq
    exact ⟨typed, htyped, hrefused⟩
  · dsimp only at hanswer
    split at hanswer <;> exact absurd hanswer Check.pure_ne_error

/-- The stored rows are checked before the new ones are inserted. -/
theorem refused_insert_iff {table : Text} (hfound : database.schemas.get? table = some schema) {rows : List Row}
    {error : SqlError} : Refused (Integrity.insert database table rows) .empty error ↔
      SeenKeys.ofRows schema (database.tableRows table) = .error error ∨
        ∃ seen, SeenKeys.ofRows schema (database.tableRows table) = .ok seen ∧
          Refused (insertRows database schema table seen rows) (only table (database.tableRows table)) error := by
  have hrequired : database.requireTable table = .ok schema := requireTable_eq_ok.mpr hfound
  simp only [Integrity.insert, refused_bind, refused_check, refused_rows, refused_setRows, runs_check, runs_rows,
    runs_setRows, false_or, hrequired]
  constructor
  · rintro (heq | ⟨_, _, ⟨heq, rfl⟩, _, _, ⟨rfl, rfl⟩, _, _, rfl, h⟩)
    · cases heq
    · cases heq
      rcases h with hstored | ⟨seen, _, ⟨hseen, rfl⟩, hrefused⟩
      · exact .inl hstored
      · exact .inr ⟨seen, hseen, hrefused⟩
  · intro h
    refine .inr ⟨schema, _, ⟨rfl, rfl⟩, _, _, ⟨rfl, rfl⟩, (), _, rfl, h.imp_right ?_⟩
    rintro ⟨seen, hseen, hrefused⟩
    exact ⟨seen, _, ⟨hseen, rfl⟩, hrefused⟩

theorem insert_ne_repeated (h : database.Reachable) (hfound : database.schemas.get? insertion.table = some schema)
    (hcolumn : column ∈ schema.columns) (hcounts : column.autoIncrement = true)
    (hfree : ∀ foreignKey ∈ schema.foreignKeys, foreignKey.onUpdate = .cascade → column.name ∉ foreignKey.columns)
    (hleft : LeavesOut schema insertion column.name) (hkey : column.name ∈ schema.primaryKey) (shown name : Text) :
    database.insert insertion ≠ .error (.rejected (.violated (.repeatedPrimaryKey shown name))) := by
  have hview := not_isView_of_counts h hfound hcolumn hcounts
  obtain ⟨hname, -⟩ := h.tablesCreated insertion.table schema hfound hview
  have hnodup := (h.wellBuilt.schema insertion.table schema hfound).names hview
  have hnone : SeenKeys.PrimaryOf schema [] (.none schema) := SeenKeys.primaryOf_none schema []
  intro hinsert
  obtain ⟨typed, htyped, hrefused⟩ := exists_refused_of_insert_eq_violated hfound hinsert
  rw [hname, refused_insert_iff hfound] at hrefused
  rcases hrefused with hstored | ⟨seen, hseen, hrefused⟩
  · exact SeenKeys.foldlM_ne_repeated hnone (h.keysHold insertion.table schema hfound).primary hstored
  · have hnull := isNull_typedRows hnodup hcolumn hleft htyped
    have hfits := int_fits_of_counts h hfound hcolumn hcounts hfree
    exact not_repeated_insertRows hcolumn hcounts hkey hnull hfits (SeenKeys.primaryOf_of_foldlM hnone hseen) hrefused

/-- Where tuples leave a counting column to count, each gets an integer that is greater than all integers stored
there before and than those of the tuples before it, and if the column belongs to the primary key, the INSERT does
not fail by repeating one. The column must not be one that a cascading reference copies values to. -/
theorem counters_rise (h : database.Reachable) (hfound : database.schemas.get? insertion.table = some schema)
    (hcolumn : column ∈ schema.columns) (hcounts : column.autoIncrement = true)
    (hfree : ∀ foreignKey ∈ schema.foreignKeys, foreignKey.onUpdate = .cascade → column.name ∉ foreignKey.columns)
    (hleft : LeavesOut schema insertion column.name) (limit : Int) :
    (∀ typed, typedRows schema insertion.columns 1 insertion.rows = .ok typed →
      CountsOn (database.tableRows insertion.table) column.name
        (filledRows schema (database.tableRows insertion.table) typed)) ∧
    (∀ outcome, database.run limit (.insert insertion) = .ok outcome →
      ∃ typed, typedRows schema insertion.columns 1 insertion.rows = .ok typed ∧
        typed.length = insertion.rows.length ∧
        (outcome.snapshot database).tableRows insertion.table = database.tableRows insertion.table ++
          filledRows schema (database.tableRows insertion.table) typed) ∧
    (column.name ∈ schema.primaryKey → ∀ shown name,
      database.run limit (.insert insertion) ≠ .error (.rejected (.violated (.repeatedPrimaryKey shown name)))) := by
  have hview := not_isView_of_counts h hfound hcolumn hcounts
  obtain ⟨hname, -⟩ := h.tablesCreated insertion.table schema hfound hview
  have hnodup := (h.wellBuilt.schema insertion.table schema hfound).names hview
  refine ⟨?_, ?_, ?_⟩
  · intro typed htyped
    exact countsOn_filledRows hcolumn hcounts (isNull_typedRows hnodup hcolumn hleft htyped) _
  · intro outcome hrun
    obtain ⟨found, typed, hthere, -, htyped, inserted, hpublish⟩ := insertsTo_iff.mp ⟨outcome, hrun, rfl⟩
    cases hfound.symm.trans hthere
    obtain ⟨declared, seen, hdeclared, -, hruns, hnext⟩ := publish_insert_eq_ok.mp hpublish
    rw [hname] at hdeclared hruns hnext
    cases hfound.symm.trans hdeclared
    refine ⟨typed, htyped, length_typedRows htyped, ?_⟩
    rw [hnext, tableRows_commit, rowsIn_only_self, inserted_eq_filledRows hruns]
  · intro hkey shown name
    exact insert_ne_repeated h hfound hcolumn hcounts hfree hleft hkey shown name

def numberColumn : Column :=
  ⟨"number", .int, false, false, true⟩

def seatSchema : TableSchema :=
  ⟨"seat", [numberColumn, ⟨"side", .text, false, false, false⟩], ["number", "side"], [], [], .declared, false⟩

/-- Seats whose numbers count in a primary key of two columns; one has no number, and one a negative one. -/
def seats : Database :=
  ⟨"seat", .ofList [("seat", seatSchema)], .ofList [("seat",
    [.ofList [("number", .float .nan), ("side", .text "left")],
      .ofList [("number", .int (-3)), ("side", .text "left")]])]⟩

set_option maxRecDepth 20000 in
theorem seats_reachable : seats.Reachable :=
  ⟨[(64, "CREATE TABLE seat(number INT AUTO_INCREMENT, side TEXT, PRIMARY KEY (number, side))"),
    (64, "INSERT INTO seat VALUES ('none', 'left'), (-3, 'left')")], by decide +kernel⟩

def moreSeats : Insert :=
  ⟨"seat", some ["side"], [[.text "left"], [.text "left"]]⟩

set_option maxRecDepth 20000 in
theorem counters_rise_seats : seats.Reachable ∧ LeavesOut seatSchema moreSeats "number" ∧
    ∃ outcome, seats.run 64 (.insert moreSeats) = .ok outcome ∧
      ((outcome.snapshot seats).tableRows "seat").map (·.value "number") =
        [.float .nan, .int (-3), .int (-2), .int (-1)] ∧
      CountsOn (seats.tableRows "seat") "number" (((outcome.snapshot seats).tableRows "seat").drop 2) ∧
      ∀ shown name, seats.run 64 (.insert moreSeats) ≠
        .error (.rejected (.violated (.repeatedPrimaryKey shown name))) := by
  have hfound : seats.schemas.get? moreSeats.table = some seatSchema := by decide +kernel
  have hcolumn : numberColumn ∈ seatSchema.columns := by decide
  have hleft : LeavesOut seatSchema moreSeats numberColumn.name := by
    intro tuple htuple value hvalue
    have hside : numberColumn.name ∈ [Text.ofString "side"] := (List.of_mem_zip hvalue).1
    exact absurd hside (by decide)
  obtain ⟨hrise, hstored, hnew⟩ := counters_rise seats_reachable hfound hcolumn rfl nofun hleft 64
  obtain ⟨outcome, hrun⟩ : ∃ outcome, seats.run 64 (.insert moreSeats) = .ok outcome :=
    Check.exists_of_isOk (by decide +kernel)
  have hnumbers : (seats.run 64 (.insert moreSeats)).toOption.map (fun outcome =>
      ((outcome.snapshot seats).tableRows "seat").map (·.value "number")) =
        some [.float .nan, .int (-3), .int (-2), .int (-1)] := by decide +kernel
  simp only [hrun, Except.toOption, Option.map_some, Option.some.injEq] at hnumbers
  obtain ⟨typed, htyped, -, hrows⟩ := hstored outcome hrun
  have hlength : (seats.tableRows moreSeats.table).length = 2 := by decide +kernel
  have hcounts : CountsOn (seats.tableRows "seat") "number" (((outcome.snapshot seats).tableRows "seat").drop 2) := by
    rw [show ("seat" : Text) = moreSeats.table from rfl, hrows, List.drop_left' hlength]
    exact hrise typed htyped
  exact ⟨seats_reachable, hleft, outcome, hrun, hnumbers, hcounts, hnew (by decide)⟩

end Database

end SnapshotSql
