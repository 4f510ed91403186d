import SnapshotSql.Proofs.PrintedSchemas
import SnapshotSql.Proofs.ReferenceTargets

/-! # Schemas that are built again from their statements

A schema that CREATE TABLE has built is described by its own statement: the definition that is read from it
builds a schema with the same columns, keys and references. What the statement does not say is lost: the names
of references, flags that have become keys, and which column counts.
-/
namespace SnapshotSql

/-! ## Types and columns -/

def ColumnType.Sized : ColumnType → Prop
  | .char length => length ≠ 0
  | .varchar length => length ≠ 0
  | _ => True

theorem lengthOf_eq_ok {type : TypeName} {params : List Number} {length : Nat} :
    lengthOf type params = .ok length ↔ length ≠ 0 ∧ params = [.int length] := by
  unfold lengthOf
  split
  · split
    · simp
      omega
    · simp
      omega
  · next hother =>
    simp only [reduceCtorEq, false_iff, not_and]
    rintro - rfl
    exact hother _ rfl

theorem sized_of_columnType {spec : ColumnSpec} {type : ColumnType} (h : columnType spec = .ok type) :
    type.Sized := by
  unfold columnType at h
  extract_lets plain at h
  have hplain {declared : ColumnType} (hsized : declared.Sized) (hrun : plain declared = .ok type) : type.Sized := by
    simp only [plain] at hrun
    split at hrun <;> cases hrun
    exact hsized
  split at h
  · cases h
  · obtain ⟨length, hlength, h⟩ := Check.bind_eq_ok.mp h
    cases h
    exact (lengthOf_eq_ok.mp hlength).1
  · obtain ⟨length, hlength, h⟩ := Check.bind_eq_ok.mp h
    cases h
    exact (lengthOf_eq_ok.mp hlength).1
  · split at h <;> cases h
    trivial
  · exact hplain (show ColumnType.Sized .int from trivial) h
  · exact hplain (show ColumnType.Sized .real from trivial) h
  · exact hplain (show ColumnType.Sized .text from trivial) h
  · exact hplain (show ColumnType.Sized .boolean from trivial) h

/-- A column without the flags that its text leaves out. -/
def Column.unflagged (column : Column) : Column :=
  { column with unique := false, autoIncrement := false }

structure Column.Describable (column : Column) : Prop where
  name : IsColumnName column.name
  type : column.type.Sized

theorem columnType_spec {column : Column} (h : column.type.Sized) : columnType column.spec = .ok column.type := by
  have hsql (name : TypeName) : TypeName.ofSql? name.sql = some name := by cases name <;> decide
  have hname : TypeName.ofSql? column.spec.typeName = some column.type.typeName := hsql _
  obtain ⟨name, type, unique, notNull, counting⟩ := column
  rw [columnType, hname]
  cases type with
  | char length =>
    have hlength : lengthOf .char [.int length] = .ok length := lengthOf_eq_ok.mpr ⟨h, rfl⟩
    simp [Column.spec, ColumnType.params, ColumnType.typeName, hlength]
  | varchar length =>
    have hlength : lengthOf .varchar [.int length] = .ok length := lengthOf_eq_ok.mpr ⟨h, rfl⟩
    simp [Column.spec, ColumnType.params, ColumnType.typeName, hlength]
  | _ => rfl

theorem buildColumn_spec {column : Column} (h : column.type.Sized) :
    buildColumn column.spec = .ok column.unflagged := by
  rw [buildColumn, columnType_spec h]
  rfl

theorem mapM_buildColumn_spec {columns : List Column} (h : ∀ column ∈ columns, column.type.Sized) :
    (columns.map Column.spec).mapM buildColumn = .ok (columns.map Column.unflagged) := by
  induction columns with
  | nil => rfl
  | cons column columns ih =>
    obtain ⟨hcolumn, hrest⟩ := List.forall_mem_cons.mp h
    rw [List.map_cons, List.mapM_cons, buildColumn_spec hcolumn, ih hrest]
    rfl

theorem of_buildColumn {spec : ColumnSpec} {column : Column} (h : buildColumn spec = .ok column) :
    column.name = spec.name ∧ column.type.Sized := by
  obtain ⟨type, htype, h⟩ := Check.bind_eq_ok.mp h
  split at h
  · exact absurd h Check.invalid_ne_ok
  · cases h
    exact ⟨rfl, sized_of_columnType htype⟩

theorem map_name_of_mapM_buildColumn {specs : List ColumnSpec} {columns : List Column}
    (h : specs.mapM buildColumn = .ok columns) : columns.map (·.name) = specs.map (·.name) := by
  induction specs generalizing columns with
  | nil =>
    cases h
    rfl
  | cons spec specs ih =>
    rw [List.mapM_cons] at h
    simp only [Check.bind_eq_ok, Check.pure_eq_ok] at h
    obtain ⟨column, hcolumn, rest, hrest, rfl⟩ := h
    rw [List.map_cons, List.map_cons, (of_buildColumn hcolumn).1, ih hrest]

/-! ## Keys -/

/-- A list of columns that can be a key of a table with the given columns. -/
structure KeyOver (names key : List Text) : Prop where
  nonempty : key ≠ []
  distinct : key.Nodup
  declared : ∀ name ∈ key, name ∈ names

structure KeysOver (names : List Text) (keys : List (List Text)) : Prop where
  distinct : keys.Nodup
  key : ∀ key ∈ keys, KeyOver names key

theorem keyOver_singleton {names : List Text} {name : Text} (h : name ∈ names) : KeyOver names [name] :=
  ⟨List.cons_ne_nil _ _, List.nodup_singleton _, by simpa using h⟩

theorem keysOver_of_foldlM {table : Text} {names : List Text} {keys more all : List (List Text)}
    (h : more.foldlM (addUniqueKey table names) keys = .ok all) (hkeys : KeysOver names keys)
    (hne : ∀ key ∈ more, key ≠ []) : KeysOver names all := by
  induction more generalizing keys with
  | nil =>
    cases h
    exact hkeys
  | cons key more ih =>
    obtain ⟨hkey, hrest⟩ := List.forall_mem_cons.mp hne
    obtain ⟨next, hnext, h⟩ := Check.bind_eq_ok.mp h
    obtain ⟨_, hcolumns, hnext⟩ := Check.bind_eq_ok.mp hnext
    obtain ⟨hdistinct, hdeclared⟩ := checkColumns_eq_ok.mp hcolumns
    cases hnext
    refine ih h ?_ hrest
    split
    · exact hkeys
    · next hnew =>
      have hother : key ∉ keys := by simpa using hnew
      refine ⟨?_, List.forall_mem_append.mpr ⟨hkeys.key, ?_⟩⟩
      · rw [List.nodup_append]
        refine ⟨hkeys.distinct, List.nodup_singleton key, fun first hfirst second hsecond heq => ?_⟩
        rw [heq, List.mem_singleton.mp hsecond] at hfirst
        exact hother hfirst
      · exact List.forall_mem_singleton.mpr ⟨hkey, hdistinct, hdeclared⟩

theorem foldlM_addUniqueKey {table : Text} {names : List Text} {keys more : List (List Text)}
    (h : KeysOver names (keys ++ more)) : more.foldlM (addUniqueKey table names) keys = .ok (keys ++ more) := by
  induction more generalizing keys with
  | nil => rw [List.append_nil]; rfl
  | cons key more ih =>
    have hkey := h.key key (by simp)
    have hnew : key ∉ keys := fun hmem => (List.nodup_append.mp h.distinct).2.2 key hmem key List.mem_cons_self rfl
    have hadd : addUniqueKey table names keys key = .ok (keys ++ [key]) := by
      rw [addUniqueKey, checkColumns_eq_ok.mpr ⟨hkey.distinct, hkey.declared⟩]
      simp [hnew]
    rw [List.append_cons] at h ⊢
    rw [List.foldlM_cons, hadd]
    exact ih h

theorem keysOver_singletons {columns : List Column} (h : (columns.map (·.name)).Nodup) (test : Column → Bool) :
    KeysOver (columns.map (·.name)) ((columns.filter test).map ([·.name])) := by
  have hsublist := (List.filter_sublist (p := test) (l := columns)).map (·.name)
  have hsingles : (columns.filter test).map ([·.name]) = ((columns.filter test).map (·.name)).map ([·]) := by simp
  rw [hsingles]
  refine ⟨(h.sublist hsublist).map fun _ _ heq => List.singleton_injective heq, fun key hmem => ?_⟩
  obtain ⟨name, hname, rfl⟩ := List.mem_map.mp hmem
  exact keyOver_singleton (hsublist.subset hname)

/-- The choice of a primary key leaves columns that a text can declare, and the key is a key over them. -/
theorem describable_of_choosePrimaryKey {definition : CreateTable} {columns chosen : List Column}
    {key : List Text} {source : KeySource} (hbuilt : definition.columns.mapM buildColumn = .ok columns)
    (hnodup : (columns.map (·.name)).Nodup) (hcolumns : ∀ column ∈ columns, column.Describable)
    (hkey : key ≠ []) (h : choosePrimaryKey definition columns = .ok (key, source, chosen)) :
    KeyOver (chosen.map (·.name)) key ∧ ∀ column ∈ chosen, column.Describable := by
  unfold choosePrimaryKey at h
  split at h
  · next declared heq =>
    obtain ⟨_, hchecked, h⟩ := Check.bind_eq_ok.mp h
    cases h
    obtain ⟨hdistinct, hdeclared⟩ := checkColumns_eq_ok.mp hchecked
    exact ⟨⟨hkey, hdistinct, hdeclared⟩, hcolumns⟩
  · dsimp only at h
    split at h
    · cases h
      have hsublist := (List.filter_sublist (p := (·.primary)) (l := definition.columns)).map (·.name)
      rw [map_name_of_mapM_buildColumn hbuilt] at hnodup ⊢
      exact ⟨⟨hkey, hnodup.sublist hsublist, fun name hmem => hsublist.subset hmem⟩, hcolumns⟩
    · split at h
      · next column hfind =>
        cases h
        have hmem := List.mem_of_find?_eq_some hfind
        have hname : column.name ∈ columns.map (·.name) := List.mem_map_of_mem hmem
        split
        · refine ⟨keyOver_singleton ?_, fun other hother => ?_⟩
          · rw [map_name_replace (by rfl)]
            exact hname
          · rcases mem_of_mem_replace hother with rfl | hold
            · exact ⟨(hcolumns column hmem).name, (hcolumns column hmem).type⟩
            · exact hcolumns other hold
        · exact ⟨keyOver_singleton hname, hcolumns⟩
      · cases h
        refine ⟨keyOver_singleton List.mem_cons_self, List.forall_mem_cons.mpr ⟨⟨?_, trivial⟩, hcolumns⟩⟩
        show IsColumnName "id"
        decide

/-! ## Schemas -/

namespace TableSchema

/-- A schema that a definition has built beside some known schemas, and the definition was read from a text. -/
def Created (schema : TableSchema) : Prop :=
  ∃ known definition text, parse text = .ok (.createTable definition) ∧ buildSchema known definition = .ok schema

structure Describable (schema : TableSchema) : Prop where
  isTable : schema.isView = false
  name : IsName schema.name
  columns : ∀ column ∈ schema.columns, column.Describable
  names : schema.columnNames.Nodup
  primaryKey : KeyOver schema.columnNames schema.primaryKey
  uniqueKeys : KeysOver schema.columnNames schema.uniqueKeys
  foreignKeys : ∀ foreignKey ∈ schema.foreignKeys, foreignKey.columns ≠ [] ∧ foreignKey.TargetNamed
  allowed : ∃ known, ∀ foreignKey ∈ schema.foreignKeys, foreignKey.Allowed known schema

variable {schema : TableSchema} {known : OrderedMap TableSchema}

theorem Created.describable (h : schema.Created) : schema.Describable := by
  obtain ⟨known, definition, text, hread, h⟩ := h
  obtain ⟨hname, hnamed⟩ := named_of_parse hread
  obtain ⟨-, hdefinition⟩ := (wellRead_of_parse hread).table definition rfl
  have hbuilt := buildSchema_eq_ok.mp h
  obtain ⟨columns, hcolumns, hnodup, hchosen⟩ := hbuilt.columns
  obtain ⟨-, hwell, -⟩ := of_buildSchema hdefinition h
  have hdescribable : ∀ column ∈ columns, column.Describable := by
    intro column hmem
    obtain ⟨spec, hspec, hcolumn⟩ := Check.exists_of_mem_mapM hcolumns hmem
    obtain ⟨heq, hsized⟩ := of_buildColumn hcolumn
    exact ⟨heq ▸ hnamed.columns spec hspec, hsized⟩
  have hnames := hwell.names hbuilt.isTable
  obtain ⟨hkey, hall⟩ := describable_of_choosePrimaryKey hcolumns hnodup hdescribable
    (hwell.primaryKey hbuilt.isTable) hchosen
  have hunique := keysOver_of_foldlM hbuilt.uniqueKeys (keysOver_singletons hnames _) hnamed.uniqueKeys
  have hforeign : ∀ foreignKey ∈ schema.foreignKeys, foreignKey.columns ≠ [] ∧ foreignKey.TargetNamed :=
    fun foreignKey hmem =>
      ⟨hwell.columns foreignKey hmem, hnamed.foreignKeys foreignKey (hbuilt.foreignKeys ▸ hmem)⟩
  exact ⟨hbuilt.isTable, hbuilt.name ▸ hname, hall, hnames, hkey, hunique, hforeign, known, hbuilt.allowed⟩

/-- The schema that a definition of the same table builds. -/
def rebuilt (schema : TableSchema) : TableSchema :=
  { schema with
    columns := schema.columns.map Column.unflagged
    foreignKeys := schema.foreignKeys.map ForeignKey.unnamed
    keySource := .declared }

@[simp] theorem columnNames_rebuilt (schema : TableSchema) : schema.rebuilt.columnNames = schema.columnNames := by
  simp [rebuilt, columnNames, Function.comp_def, Column.unflagged]

@[simp] theorem column?_rebuilt (schema : TableSchema) (name : Text) :
    schema.rebuilt.column? name = (schema.column? name).map Column.unflagged := by
  rw [column?, rebuilt, List.find?_map]
  rfl

theorem allowed_rebuilt {foreignKey : ForeignKey} (h : foreignKey.Allowed known schema) :
    foreignKey.unnamed.Allowed known schema.rebuilt := by
  refine ⟨h.distinct, ?_, h.paired, ?_, ?_⟩
  · rw [columnNames_rebuilt]
    exact h.declared
  · obtain ⟨target, htarget, hthere⟩ := h.target
    rw [OrderedMap.get?_insert] at htarget
    simp only [OrderedMap.get?_insert]
    split at htarget
    · next hsame =>
      cases htarget
      exact ⟨schema.rebuilt, if_pos hsame, columnNames_rebuilt schema ▸ hthere⟩
    · next hother => exact ⟨target, by rw [← htarget]; exact if_neg hother, hthere⟩
  · intro hnull name hmem
    obtain ⟨hkey, hflag⟩ := h.nullable hnull name hmem
    refine ⟨hkey, ?_⟩
    rw [column?_rebuilt, Option.any_map]
    exact hflag

theorem Describable.buildSchema_definition (h : schema.Describable)
    (hallowed : ∀ foreignKey ∈ schema.foreignKeys, foreignKey.Allowed known schema) :
    buildSchema known schema.definition = .ok schema.rebuilt := by
  have hkey : schema.definition.primaryKey = some schema.primaryKey := by
    simp [definition, h.primaryKey.nonempty]
  have hnames : (schema.columns.map Column.unflagged).map (·.name) = schema.columnNames := columnNames_rebuilt schema
  refine buildSchema_eq_ok.mpr ⟨⟨schema.rebuilt.columns, ?_, ?_, ?_⟩, ?_, rfl, rfl, h.isTable, ?_⟩
  · exact mapM_buildColumn_spec fun column hmem => (h.columns column hmem).type
  · exact hnames ▸ h.names
  · have hchecked : checkColumns schema.name "PRIMARY KEY" schema.columnNames schema.primaryKey = .ok () :=
      checkColumns_eq_ok.mpr ⟨h.primaryKey.distinct, h.primaryKey.declared⟩
    rw [choosePrimaryKey, hkey]
    change (checkColumns schema.name "PRIMARY KEY" ((schema.columns.map Column.unflagged).map (·.name)) _ >>= _) = _
    rw [hnames, hchecked]
    rfl
  · have hflagged : (schema.rebuilt.columns.filter (·.unique)) = [] := by
      simp [rebuilt, Column.unflagged]
    rw [hflagged, columnNames_rebuilt]
    exact foldlM_addUniqueKey h.uniqueKeys
  · intro foreignKey hmem
    obtain ⟨original, horiginal, rfl⟩ := List.mem_map.mp hmem
    exact allowed_rebuilt (hallowed original horiginal)

theorem Describable.isName (h : schema.Describable) {name : Text} (hmem : name ∈ schema.columnNames) :
    IsName name := by
  obtain ⟨column, hcolumn, rfl⟩ := List.mem_map.mp hmem
  exact (h.columns column hcolumn).name.1

theorem Describable.columns_ne_nil (h : schema.Describable) : schema.columns ≠ [] := by
  obtain ⟨name, hname⟩ := List.exists_mem_of_ne_nil _ h.primaryKey.nonempty
  obtain ⟨column, hcolumn, -⟩ := List.mem_map.mp (h.primaryKey.declared name hname)
  exact List.ne_nil_of_mem hcolumn

theorem Describable.allAddable (h : schema.Describable) :
    Parser.AllAddable ⟨schema.name, [], none, [], [], false⟩ schema.elements := by
  obtain ⟨known, hallowed⟩ := h.allowed
  simp only [elements, Parser.allAddable_append, foldl_addTo_columns]
  refine ⟨Parser.allAddable_of_forall ?_, ?_, Parser.allAddable_of_forall ?_, Parser.allAddable_of_forall ?_⟩
  · refine List.forall_mem_map.mpr fun column hmem draft => ?_
    exact (h.columns column hmem).name.2
  · rw [if_neg (by simpa using h.primaryKey.nonempty)]
    exact ⟨⟨h.primaryKey.nonempty, rfl⟩, trivial⟩
  · refine List.forall_mem_map.mpr fun key hmem draft => ?_
    exact (h.uniqueKeys.key key hmem).nonempty
  · refine List.forall_mem_map.mpr fun foreignKey hmem draft => ?_
    obtain ⟨hcolumns, -⟩ := h.foreignKeys foreignKey hmem
    refine ⟨hcolumns, fun hnil => hcolumns ?_⟩
    have hpaired := (hallowed foreignKey hmem).paired
    rw [hnil] at hpaired
    exact List.eq_nil_of_length_eq_zero hpaired

theorem Describable.named (h : schema.Describable) : ∀ element ∈ schema.elements, element.Named := by
  obtain ⟨known, hallowed⟩ := h.allowed
  simp only [elements, List.forall_mem_append, List.forall_mem_map]
  refine ⟨?_, ?_, ?_, ?_⟩
  · exact fun column hmem => (h.columns column hmem).name.1
  · rw [if_neg (by simpa using h.primaryKey.nonempty), List.forall_mem_singleton]
    exact fun name hmem => h.isName (h.primaryKey.declared name hmem)
  · exact fun key hkey name hmem => h.isName ((h.uniqueKeys.key key hkey).declared name hmem)
  · intro foreignKey hmem
    obtain ⟨-, htarget⟩ := h.foreignKeys foreignKey hmem
    exact ⟨fun name hname => h.isName ((hallowed foreignKey hmem).declared name hname), htarget.table, htarget.columns⟩

/-- The grammar takes the name of a table for the word IF, which opens IF NOT EXISTS. -/
def CalledIf (schema : TableSchema) : Prop :=
  (Text.upper schema.name).toString = "IF"

instance : DecidablePred CalledIf :=
  fun _ => inferInstanceAs (Decidable (_ = _))

theorem isWord_name_iff : (Lexeme.name schema.name).isWord ["IF"] = false ↔ ¬ schema.CalledIf := by
  simp [Lexeme.isWord, CalledIf]

/-- The statement of a table is read as its definition, with or without its semicolon. -/
theorem Describable.parse_sql (h : schema.Describable) (hword : ¬ schema.CalledIf) :
    parse schema.sql = .ok (.createTable schema.definition) ∧
      parse schema.body = .ok (.createTable schema.definition) :=
  SnapshotSql.parse_sql h.name (isWord_name_iff.mpr hword) h.columns_ne_nil h.allAddable h.named

/-- The same table as far as a text can say: its name, its columns with their types and NOT NULL, its keys and
its references but for their names. -/
structure SameTable (schema other : TableSchema) : Prop where
  name : other.name = schema.name
  columns : other.columns.map (fun column => (column.name, column.type, column.notNull)) =
    schema.columns.map fun column => (column.name, column.type, column.notNull)
  primaryKey : other.primaryKey = schema.primaryKey
  uniqueKeys : other.uniqueKeys = schema.uniqueKeys
  foreignKeys : other.foreignKeys.map ForeignKey.unnamed = schema.foreignKeys.map ForeignKey.unnamed

theorem sameTable_rebuilt (schema : TableSchema) : schema.SameTable schema.rebuilt := by
  refine ⟨rfl, ?_, rfl, rfl, ?_⟩ <;> simp [rebuilt, Function.comp_def, Column.unflagged, ForeignKey.unnamed]

end TableSchema

/-! ## Snapshots -/

namespace Database

variable {database : Database} {table : Text} {schema : TableSchema}

/-- Every table is found under its own name and has been created by a text. -/
def TablesCreated (database : Database) : Prop :=
  ∀ table schema, database.schemas.get? table = some schema → schema.isView = false →
    schema.name = table ∧ schema.Created

theorem Transition.tablesCreated {before after : Database} (h : Transition before after)
    (hbefore : before.TablesCreated) : after.TablesCreated := by
  intro table found hfound htable
  cases h with
  | create hdefinition _ hschema _ hread =>
    rw [addTable, OrderedMap.get?_insert] at hfound
    split at hfound
    · next hname =>
      cases hfound
      obtain ⟨text, hread⟩ := hread
      exact ⟨hname.symm, _, _, text, hread, hschema⟩
    · exact hbefore table found hfound htable
  | view =>
    rw [OrderedMap.get?_insert] at hfound
    split at hfound
    · cases hfound
      cases htable
    · exact hbefore table found hfound htable
  | drop =>
    rw [eraseTable, OrderedMap.get?_erase] at hfound
    split at hfound
    · cases hfound
    · exact hbefore table found hfound htable
  | insert h => exact hbefore table found (schemas_of_publish h ▸ hfound) htable
  | update _ h => exact hbefore table found (schemas_of_publish h ▸ hfound) htable
  | delete h => exact hbefore table found (schemas_of_publish h ▸ hfound) htable

theorem Reachable.tablesCreated (h : database.Reachable) : database.TablesCreated :=
  h.invariant TablesCreated nofun fun _ _ => Transition.tablesCreated

/-- Every view has the schema of a result that was stored under its name. -/
def ViewsMade (database : Database) : Prop :=
  ∀ table schema, database.schemas.get? table = some schema → schema.isView = true →
    ∃ result, schema = viewSchema table result

theorem Transition.viewsMade {before after : Database} (h : Transition before after)
    (hbefore : before.ViewsMade) : after.ViewsMade := by
  intro table found hfound hview
  cases h with
  | create _ _ hschema =>
    rw [addTable, OrderedMap.get?_insert] at hfound
    split at hfound
    · cases hfound
      rw [(buildSchema_eq_ok.mp hschema).isTable] at hview
      cases hview
    · exact hbefore table found hfound hview
  | @view view result =>
    rw [OrderedMap.get?_insert] at hfound
    split at hfound
    · next hname =>
      cases hfound
      exact ⟨result, by rw [hname]⟩
    · exact hbefore table found hfound hview
  | drop =>
    rw [eraseTable, OrderedMap.get?_erase] at hfound
    split at hfound
    · cases hfound
    · exact hbefore table found hfound hview
  | insert h => exact hbefore table found (schemas_of_publish h ▸ hfound) hview
  | update _ h => exact hbefore table found (schemas_of_publish h ▸ hfound) hview
  | delete h => exact hbefore table found (schemas_of_publish h ▸ hfound) hview

theorem Reachable.viewsMade (h : database.Reachable) : database.ViewsMade :=
  h.invariant ViewsMade nofun fun _ _ => Transition.viewsMade

/-- The references of a schema find their columns. Those to tables always do, those to views may not. -/
def FindsReferenced (database : Database) (schema : TableSchema) : Prop :=
  ∀ foreignKey ∈ schema.foreignKeys, ∃ target, database.schemas.get? foreignKey.refTable = some target ∧
    HasReferenced foreignKey target

def RefersToTables (database : Database) (schema : TableSchema) : Prop :=
  ∀ foreignKey ∈ schema.foreignKeys, ∀ target, database.schemas.get? foreignKey.refTable = some target →
    target.isView = false

instance (database : Database) (schema : TableSchema) : Decidable (database.RefersToTables schema) :=
  decidable_of_iff (∀ foreignKey ∈ schema.foreignKeys,
    (database.schemas.get? foreignKey.refTable).all (!·.isView)) <| by
    simp [RefersToTables, Option.all_eq_true]

theorem Reachable.findsReferenced (h : database.Reachable) (hfound : database.schemas.get? table = some schema)
    (htables : database.RefersToTables schema) : database.FindsReferenced schema := by
  intro foreignKey hmem
  obtain ⟨target, htarget, hthere⟩ := h.pointsAt table foreignKey ((mem_foreignKeys ..).mpr ⟨schema, hfound, hmem⟩)
  exact ⟨target, htarget, hthere (htables foreignKey hmem target htarget)⟩

/-- The definition of a table builds it again beside the other tables, if its references find their columns. -/
theorem Reachable.buildSchema_definition (h : database.Reachable)
    (hfound : database.schemas.get? table = some schema) (htable : schema.isView = false)
    (hreferenced : database.FindsReferenced schema) {known : OrderedMap TableSchema}
    (hknown : ∀ other, other ≠ table → known.get? other = database.schemas.get? other) :
    buildSchema known schema.definition = .ok schema.rebuilt := by
  obtain ⟨rfl, hcreated⟩ := h.tablesCreated table schema hfound htable
  obtain ⟨earlier, hallowed⟩ := hcreated.describable.allowed
  refine hcreated.describable.buildSchema_definition fun foreignKey hmem => ?_
  have hold := hallowed foreignKey hmem
  obtain ⟨target, htarget, hthere⟩ := hreferenced foreignKey hmem
  refine ⟨hold.distinct, hold.declared, hold.paired, ⟨target, ?_, hthere⟩, hold.nullable⟩
  rw [OrderedMap.get?_insert]
  split
  · next hsame => rw [← htarget, hsame, hfound]
  · next hother => rw [hknown _ hother, htarget]

/-- The statement of a table that refers to tables only is read as a definition, unless the table is called IF,
which the grammar takes for the word; and the definition builds the same table beside those that are there. -/
theorem sql_rebuilds (h : database.Reachable) (hfound : database.schemas.get? table = some schema)
    (htable : schema.isView = false) (htables : database.RefersToTables schema) (hword : ¬ schema.CalledIf) :
    ∃ definition rebuilt, parse schema.sql = .ok (.createTable definition) ∧
      buildSchema database.schemas definition = .ok rebuilt ∧ schema.SameTable rebuilt := by
  obtain ⟨-, hcreated⟩ := h.tablesCreated table schema hfound htable
  have hreferenced := h.findsReferenced hfound htables
  exact ⟨schema.definition, schema.rebuilt, (hcreated.describable.parse_sql hword).1,
    h.buildSchema_definition hfound htable hreferenced fun _ _ => rfl, schema.sameTable_rebuilt⟩

/-- The notes of the league: a column id that counts, and a reference that is set to null. -/
def noteSchema : TableSchema :=
  ⟨"note", [⟨"id", .int, false, false, true⟩, ⟨"player", .int, false, false, false⟩], ["id"], [],
    [⟨["player"], "player", ["id"], .setNull, .restrict, none⟩], .existingId, false⟩

theorem sql_rebuilds_note : league.Reachable ∧ league.schemas.get? "note" = some noteSchema ∧
    noteSchema.isView = false ∧ league.RefersToTables noteSchema ∧ ¬ noteSchema.CalledIf ∧
      ∃ definition rebuilt, parse noteSchema.sql = .ok (.createTable definition) ∧
        buildSchema league.schemas definition = .ok rebuilt ∧ noteSchema.SameTable rebuilt := by
  have hfound : league.schemas.get? "note" = some noteSchema := by decide +kernel
  have htables : league.RefersToTables noteSchema := by decide +kernel
  have hword : ¬ noteSchema.CalledIf := by decide +kernel
  exact ⟨league_reachable, hfound, rfl, htables, hword, sql_rebuilds league_reachable hfound rfl htables hword⟩

end Database

end SnapshotSql
