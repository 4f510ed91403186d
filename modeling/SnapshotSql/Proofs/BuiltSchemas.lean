import SnapshotSql.Proofs.DefinitionShapes
import SnapshotSql.Proofs.SortedLists
import Mathlib.Data.List.Nodup

/-! # What CREATE TABLE sees to once and for all

A table that has been created has a primary key and no two columns of one name, and only INT columns
count. Its references have distinct columns of it, as many as they refer to, and point at tables that are
there, and a reference that a DELETE may set to null has no column of the primary key and none that is
NOT NULL. Later statements rely on this without checking it again.
-/
namespace SnapshotSql

/-! ## Columns -/

theorem repeatedNames_eq_nil_iff (names : List Text) : repeatedNames names = [] ↔ names.Nodup := by
  have hperm := Sorting.perm_sort Text.lt (names.filter (1 < names.count ·)).eraseDups
  rw [repeatedNames, Database.sortNames, List.nodup_iff_count_le_one]
  constructor
  · intro h name
    rw [h, List.nil_perm, List.eq_nil_iff_forall_not_mem] at hperm
    by_contra hmany
    have hmem : name ∈ names := List.count_pos_iff.mp (by omega)
    exact hperm name (List.mem_eraseDups.mpr (List.mem_filter.mpr ⟨hmem, by simpa using hmany⟩))
  · intro h
    have hnone : names.filter (1 < names.count ·) = [] := by
      rw [List.filter_eq_nil_iff]
      intro name _
      have hcount := h name
      simpa using hcount
    rw [hnone] at hperm ⊢
    exact List.perm_nil.mp hperm

theorem map_name_replace {columns : List Column} {column other : Column}
    (h : other.name = column.name) : (columns.replace column other).map (·.name) = columns.map (·.name) := by
  induction columns with
  | nil => rfl
  | cons first columns ih =>
    by_cases heq : column = first
    · subst heq
      simp [h]
    · have hb : (column == first) = false := by simpa using heq
      simp [List.replace_cons, hb, ih]

theorem mem_of_mem_replace {columns : List Column} {column other found : Column}
    (h : found ∈ columns.replace column other) : found = other ∨ found ∈ columns := by
  induction columns with
  | nil => cases h
  | cons first columns ih =>
    rw [List.replace_cons] at h
    split at h
    · exact (List.mem_cons.mp h).imp_right (List.mem_cons_of_mem first)
    · rcases List.mem_cons.mp h with rfl | hrest
      · exact Or.inr List.mem_cons_self
      · exact (ih hrest).imp_right (List.mem_cons_of_mem first)

def OnlyIntsCount (columns : List Column) : Prop :=
  ∀ column ∈ columns, column.autoIncrement = true → column.type = .int

theorem onlyIntsCount_of_buildColumn {definition : CreateTable} {columns : List Column}
    (h : definition.columns.mapM buildColumn = .ok columns) : OnlyIntsCount columns := by
  intro column hmem hcounts
  obtain ⟨spec, -, hbuilt⟩ := Check.exists_of_mem_mapM h hmem
  obtain ⟨type, -, hbuilt⟩ := Check.bind_eq_ok.mp hbuilt
  split at hbuilt
  · exact absurd hbuilt Check.invalid_ne_ok
  · next hint =>
    cases hbuilt
    simpa [show spec.autoIncrement = true from hcounts] using hint

/-- A table has a primary key, and the choice of one leaves its column names distinct and lets no
column count but INT columns. -/
theorem of_choosePrimaryKey {definition : CreateTable} {columns chosen : List Column}
    {key : List Text} {source : KeySource} (hdefinition : definition.NamesColumns)
    (hnodup : (columns.map (·.name)).Nodup) (hcount : OnlyIntsCount columns)
    (h : choosePrimaryKey definition columns = .ok (key, source, chosen)) :
    key ≠ [] ∧ (chosen.map (·.name)).Nodup ∧ OnlyIntsCount chosen := by
  unfold choosePrimaryKey at h
  split at h
  · next declared heq =>
    obtain ⟨_, -, h⟩ := Check.bind_eq_ok.mp h
    cases h
    exact ⟨fun hnil => hdefinition.primaryKey (hnil ▸ heq), hnodup, hcount⟩
  · dsimp only at h
    split at h
    · next hflagged =>
      cases h
      exact ⟨by simpa using hflagged, hnodup, hcount⟩
    · split at h
      · next column hfind =>
        cases h
        refine ⟨List.cons_ne_nil _ _, ?_⟩
        split
        · next hint =>
          rw [map_name_replace (by rfl)]
          refine ⟨hnodup, fun other hother hcounts => ?_⟩
          rcases mem_of_mem_replace hother with rfl | hold
          · exact hint
          · exact hcount other hold hcounts
        · exact ⟨hnodup, hcount⟩
      · next hnone =>
        cases h
        refine ⟨List.cons_ne_nil _ _, List.nodup_cons.mpr ⟨?_, hnodup⟩,
          List.forall_mem_cons.mpr ⟨fun _ => rfl, hcount⟩⟩
        rw [List.mem_map]
        rintro ⟨column, hmem, hname⟩
        have hid := List.find?_eq_none.mp hnone column hmem
        rw [hname] at hid
        exact hid rfl

/-! ## Schemas -/

/-- A column that may be set to null: neither in the primary key nor NOT NULL. -/
def TableSchema.Clearable (schema : TableSchema) (name : Text) : Prop :=
  name ∉ schema.primaryKey ∧ ∀ column ∈ schema.columns, column.name = name → column.notNull = false

/-- What a schema guarantees that a statement has built. -/
structure TableSchema.WellBuilt (schema : TableSchema) : Prop where
  primaryKey : schema.isView = false → schema.primaryKey ≠ []
  columns : ∀ foreignKey ∈ schema.foreignKeys, foreignKey.columns ≠ []
  clearable : ∀ foreignKey ∈ schema.foreignKeys, foreignKey.onDelete = .setNull →
    ∀ name ∈ foreignKey.columns, schema.Clearable name
  names : schema.isView = false → schema.columnNames.Nodup
  counters : OnlyIntsCount schema.columns
  paired : ∀ foreignKey ∈ schema.foreignKeys,
    foreignKey.columns.Nodup ∧ foreignKey.columns.length = foreignKey.refColumns.length
  declared : ∀ foreignKey ∈ schema.foreignKeys, ∀ name ∈ foreignKey.columns, name ∈ schema.columnNames
  view : schema.isView = true → schema.foreignKeys = []

theorem column?_eq_some {schema : TableSchema} (hnodup : schema.columnNames.Nodup) {column : Column}
    (hmem : column ∈ schema.columns) : schema.column? column.name = some column := by
  unfold TableSchema.columnNames at hnodup
  unfold TableSchema.column?
  generalize schema.columns = columns at hnodup hmem
  induction columns with
  | nil => cases hmem
  | cons first columns ih =>
    obtain ⟨hnew, hnodup⟩ := List.nodup_cons.mp hnodup
    rcases List.mem_cons.mp hmem with rfl | hmem
    · simp
    · have hne : first.name ≠ column.name := by
        intro heq
        exact hnew (List.mem_map.mpr ⟨column, hmem, heq.symm⟩)
      rw [List.find?_cons_of_neg (by simpa using hne), ih hnodup hmem]

theorem checkColumns_eq_ok {table part : Text} {available names : List Text} :
    checkColumns table part available names = .ok () ↔ names.Nodup ∧ ∀ name ∈ names, name ∈ available := by
  unfold checkColumns
  split
  · next name hfind =>
    have hmissing : name ∉ available := by simpa using List.find?_some hfind
    simp only [Check.invalid_ne_ok, false_iff, not_and]
    exact fun _ hall => hmissing (hall name (List.mem_of_find?_eq_some hfind))
  · next hnone =>
    have hall : ∀ name ∈ names, name ∈ available :=
      fun name hmem => by simpa using List.find?_eq_none.mp hnone name hmem
    split
    · next hnodup => exact iff_of_true rfl ⟨hnodup, hall⟩
    · next hnodup => exact iff_of_false Check.invalid_ne_ok fun h => hnodup h.1

/-- A foreign key that a schema can have beside the schemas known so far. -/
structure ForeignKey.Allowed (known : OrderedMap TableSchema) (schema : TableSchema) (foreignKey : ForeignKey) :
    Prop where
  distinct : foreignKey.columns.Nodup
  declared : ∀ name ∈ foreignKey.columns, name ∈ schema.columnNames
  paired : foreignKey.columns.length = foreignKey.refColumns.length
  target : ∃ target, (known.insert schema.name schema).get? foreignKey.refTable = some target ∧
    ∀ name ∈ foreignKey.refColumns, name ∈ target.columnNames
  nullable : foreignKey.onDelete = .setNull ∨ foreignKey.onUpdate = .setNull →
    ∀ name ∈ foreignKey.columns, name ∉ schema.primaryKey ∧ (schema.column? name).any (·.notNull) = false

theorem checkForeignKey_eq_ok {known : OrderedMap TableSchema} {schema : TableSchema} {foreignKey : ForeignKey} :
    checkForeignKey known schema foreignKey = .ok () ↔ foreignKey.Allowed known schema := by
  unfold checkForeignKey
  extract_lets rigid nulling finish counted
  have hfinish (target : TableSchema) : finish target = .ok () ↔
      (∀ name ∈ foreignKey.refColumns, name ∈ target.columnNames) ∧
        (foreignKey.onDelete = .setNull ∨ foreignKey.onUpdate = .setNull → ∀ name ∈ foreignKey.columns,
          name ∉ schema.primaryKey ∧ (schema.column? name).any (·.notNull) = false) := by
    simp only [finish]
    split
    · next name hfind =>
      have hmissing : name ∉ target.columnNames := by simpa using List.find?_some hfind
      exact iff_of_false Check.invalid_ne_ok fun h => hmissing (h.1 name (List.mem_of_find?_eq_some hfind))
    · next hnone =>
      have hthere : ∀ name ∈ foreignKey.refColumns, name ∈ target.columnNames :=
        fun name hmem => by simpa using List.find?_eq_none.mp hnone name hmem
      have hrigid : rigid = [] ↔ ∀ name ∈ foreignKey.columns,
          name ∉ schema.primaryKey ∧ (schema.column? name).any (·.notNull) = false := by
        simp only [rigid, List.filter_eq_nil_iff, Bool.not_eq_true, Bool.or_eq_false_iff,
          List.contains_eq_mem, decide_eq_false_iff_not]
      have hnulling : nulling = true ↔ foreignKey.onDelete = .setNull ∨ foreignKey.onUpdate = .setNull := by
        simp only [nulling, Bool.or_eq_true, decide_eq_true_eq]
      rw [← hrigid, ← hnulling]
      split
      · next hboth =>
        simp only [Bool.and_eq_true, Bool.not_eq_true', List.isEmpty_eq_false_iff] at hboth
        exact iff_of_false Check.invalid_ne_ok fun h => hboth.1 (h.2 hboth.2)
      · next hboth =>
        simp only [Bool.and_eq_true, Bool.not_eq_true', List.isEmpty_eq_false_iff, not_and'] at hboth
        exact iff_of_true rfl ⟨hthere, fun hnull => not_not.mp (hboth hnull)⟩
  have hcounted : counted () = .ok () ↔
      ∃ target, (known.insert schema.name schema).get? foreignKey.refTable = some target ∧
        finish target = .ok () := by
    simp only [counted]
    rw [OrderedMap.get?_insert]
    split
    · simp
    · split
      · next target heq => simp [heq]
      · next hnone => simp [hnone]
  rw [Check.bind_eq_ok]
  constructor
  · rintro ⟨_, hcolumns, h⟩
    obtain ⟨hdistinct, hdeclared⟩ := checkColumns_eq_ok.mp hcolumns
    split at h
    · obtain ⟨_, hfalse, -⟩ := Check.bind_eq_ok.mp h
      exact absurd hfalse Check.invalid_ne_ok
    · next hpaired =>
      obtain ⟨target, hfound, htarget⟩ := hcounted.mp h
      obtain ⟨hthere, hnullable⟩ := (hfinish target).mp htarget
      exact ⟨hdistinct, hdeclared, not_not.mp hpaired, ⟨target, hfound, hthere⟩, hnullable⟩
  · intro h
    obtain ⟨target, hfound, hthere⟩ := h.target
    refine ⟨(), checkColumns_eq_ok.mpr ⟨h.distinct, h.declared⟩, ?_⟩
    rw [if_neg (not_not.mpr h.paired)]
    exact hcounted.mpr ⟨target, hfound, (hfinish target).mpr ⟨hthere, h.nullable⟩⟩

theorem of_checkForeignKey {known : OrderedMap TableSchema} {schema : TableSchema}
    {foreignKey : ForeignKey} (hnodup : schema.columnNames.Nodup)
    (h : checkForeignKey known schema foreignKey = .ok ()) :
    (∃ target, (known.insert schema.name schema).get? foreignKey.refTable = some target ∧
      ∀ name ∈ foreignKey.refColumns, name ∈ target.columnNames) ∧
      (foreignKey.onDelete = .setNull → ∀ name ∈ foreignKey.columns, schema.Clearable name) ∧
      (foreignKey.columns.Nodup ∧ foreignKey.columns.length = foreignKey.refColumns.length) ∧
      ∀ name ∈ foreignKey.columns, name ∈ schema.columnNames := by
  have hallowed := checkForeignKey_eq_ok.mp h
  refine ⟨hallowed.target, fun hnull name hmem => ?_, ⟨hallowed.distinct, hallowed.paired⟩, hallowed.declared⟩
  obtain ⟨hkey, hflag⟩ := hallowed.nullable (.inl hnull) name hmem
  refine ⟨hkey, fun column hcolumn heq => ?_⟩
  rw [← heq, column?_eq_some hnodup hcolumn] at hflag
  simpa using hflag

structure TableSchema.BuiltFrom (known : OrderedMap TableSchema) (definition : CreateTable)
    (schema : TableSchema) : Prop where
  columns : ∃ columns, definition.columns.mapM buildColumn = .ok columns ∧ (columns.map (·.name)).Nodup ∧
    choosePrimaryKey definition columns = .ok (schema.primaryKey, schema.keySource, schema.columns)
  uniqueKeys : definition.uniqueKeys.foldlM (addUniqueKey definition.table schema.columnNames)
    ((schema.columns.filter (·.unique)).map ([·.name])) = .ok schema.uniqueKeys
  name : schema.name = definition.table
  foreignKeys : schema.foreignKeys = definition.foreignKeys
  isTable : schema.isView = false
  allowed : ∀ foreignKey ∈ schema.foreignKeys, foreignKey.Allowed known schema

theorem buildSchema_eq_ok {known : OrderedMap TableSchema} {definition : CreateTable} {schema : TableSchema} :
    buildSchema known definition = .ok schema ↔ schema.BuiltFrom known definition := by
  unfold buildSchema
  simp only [Check.bind_eq_ok]
  constructor
  · rintro ⟨columns, hcolumns, h⟩
    split at h
    · obtain ⟨_, hfalse, -⟩ := Check.bind_eq_ok.mp h
      exact absurd hfalse Check.invalid_ne_ok
    · next hrepeated =>
      obtain ⟨⟨key, source, chosen⟩, hchosen, h⟩ := Check.bind_eq_ok.mp h
      obtain ⟨uniqueKeys, hunique, h⟩ := Check.bind_eq_ok.mp h
      obtain ⟨_, hforeign, h⟩ := Check.bind_eq_ok.mp h
      cases h
      have hnodup : (columns.map (·.name)).Nodup := (repeatedNames_eq_nil_iff _).mp (by simpa using hrepeated)
      exact ⟨⟨columns, hcolumns, hnodup, hchosen⟩, hunique, rfl, rfl, rfl,
        fun foreignKey hmem => checkForeignKey_eq_ok.mp (Check.forM_eq_ok.mp hforeign foreignKey hmem)⟩
  · intro h
    obtain ⟨columns, hcolumns, hnodup, hchosen⟩ := h.columns
    refine ⟨columns, hcolumns, ?_⟩
    have hrepeated := (repeatedNames_eq_nil_iff _).mpr hnodup
    obtain ⟨name, chosen, key, uniqueKeys, foreignKeys, source, view⟩ := schema
    obtain ⟨-, hunique, rfl, rfl, rfl, hallowed⟩ := h
    have hforeign : definition.foreignKeys.forM
        (checkForeignKey known ⟨_, chosen, key, uniqueKeys, definition.foreignKeys, source, false⟩) = .ok () :=
      Check.forM_eq_ok.mpr fun foreignKey hmem => checkForeignKey_eq_ok.mpr (hallowed foreignKey hmem)
    rw [hrepeated, if_neg (by simp)]
    simp only [Check.bind_eq_ok]
    exact ⟨_, hchosen, _, hunique, _, hforeign, rfl⟩

/-- What CREATE TABLE has seen to when it answers a schema. -/
theorem of_buildSchema {known : OrderedMap TableSchema} {definition : CreateTable}
    {schema : TableSchema} (hdefinition : definition.NamesColumns)
    (h : buildSchema known definition = .ok schema) :
    schema.name = definition.table ∧ schema.WellBuilt ∧ ∀ foreignKey ∈ schema.foreignKeys,
      ∃ target, (known.insert schema.name schema).get? foreignKey.refTable = some target ∧
        ∀ name ∈ foreignKey.refColumns, name ∈ target.columnNames := by
  have hbuilt := buildSchema_eq_ok.mp h
  obtain ⟨columns, hcolumns, hnodup, hchosen⟩ := hbuilt.columns
  obtain ⟨hkey, hnames, hcount⟩ := of_choosePrimaryKey hdefinition hnodup
    (onlyIntsCount_of_buildColumn hcolumns) hchosen
  have hchecked := fun foreignKey hmem =>
    of_checkForeignKey hnames (checkForeignKey_eq_ok.mpr (hbuilt.allowed foreignKey hmem))
  have hforeign : ∀ foreignKey ∈ schema.foreignKeys, foreignKey.columns ≠ [] :=
    hbuilt.foreignKeys ▸ hdefinition.foreignKeys
  have hview : schema.isView = true → schema.foreignKeys = [] := by
    rw [hbuilt.isTable]
    exact nofun
  refine ⟨hbuilt.name, ⟨fun _ => hkey, hforeign, ?_, fun _ => hnames, hcount, ?_, ?_, hview⟩, ?_⟩
  · exact fun foreignKey hmem => (hchecked foreignKey hmem).2.1
  · exact fun foreignKey hmem => (hchecked foreignKey hmem).2.2.1
  · exact fun foreignKey hmem => (hchecked foreignKey hmem).2.2.2
  · exact fun foreignKey hmem => (hchecked foreignKey hmem).1

theorem wellBuilt_viewSchema (view : Text) (result : QueryResult) :
    (viewSchema view result).WellBuilt := by
  refine ⟨nofun, nofun, nofun, nofun, fun column hcolumn hcounts => ?_, nofun, nofun, fun _ => rfl⟩
  obtain ⟨name, -, rfl⟩ := List.mem_map.mp hcolumn
  cases hcounts

end SnapshotSql
