import SnapshotSql.Definition
import SnapshotSql.Proofs.ReadDefinitions

/-! # The elements of a CREATE TABLE statement

A statement lists columns and constraints one after the other, and each of them adds to what has been gathered.
The elements of a schema add up to the definition that describes it, and this is what the grammar makes of their
lexemes. Of a column only the type and NOT NULL are listed, and a reference without its name.
-/
namespace SnapshotSql

/-! ## The parts of a statement -/

inductive TableElement where
  | column (declared : Column)
  | primaryKey (names : List Text)
  | unique (names : List Text)
  | reference (foreignKey : ForeignKey)

def ColumnType.params : ColumnType → List Number
  | .decimal precision scale => [.int precision, .int scale]
  | .char length => [.int length]
  | .varchar length => [.int length]
  | _ => []

def Column.spec (column : Column) : ColumnSpec :=
  ⟨column.name, column.type.typeName.sql, column.type.params, false, false, column.notNull, false⟩

def ForeignKey.unnamed (foreignKey : ForeignKey) : ForeignKey :=
  { foreignKey with name := none }

namespace TableElement

def sql : TableElement → Text
  | .column declared => declared.sql
  | .primaryKey names => TableSchema.sql.listed "PRIMARY KEY" names
  | .unique names => TableSchema.sql.listed "UNIQUE" names
  | .reference foreignKey => foreignKey.sql

/-- What an element adds to the definition that has been gathered. -/
def addTo (draft : CreateTable) : TableElement → CreateTable
  | .column declared => { draft with columns := draft.columns ++ [declared.spec] }
  | .primaryKey names => { draft with primaryKey := some names }
  | .unique names => { draft with uniqueKeys := draft.uniqueKeys ++ [names] }
  | .reference foreignKey => { draft with foreignKeys := draft.foreignKeys ++ [foreignKey.unnamed] }

end TableElement

namespace TableSchema

def elements (schema : TableSchema) : List TableElement :=
  schema.columns.map .column ++
    ((if schema.primaryKey.isEmpty then [] else [.primaryKey schema.primaryKey]) ++
      (schema.uniqueKeys.map .unique ++ schema.foreignKeys.map .reference))

def definition (schema : TableSchema) : CreateTable where
  table := schema.name
  columns := schema.columns.map Column.spec
  primaryKey := if schema.primaryKey.isEmpty then none else some schema.primaryKey
  uniqueKeys := schema.uniqueKeys
  foreignKeys := schema.foreignKeys.map ForeignKey.unnamed
  ifNotExists := false

/-- Columns are added behind those that have been gathered. -/
theorem foldl_addTo_columns (columns : List Column) (draft : CreateTable) :
    (columns.map TableElement.column).foldl TableElement.addTo draft =
      { draft with columns := draft.columns ++ columns.map Column.spec } := by
  induction columns generalizing draft with
  | nil => simp
  | cons column columns ih => simp [ih, TableElement.addTo]

/-- The elements of a schema add up to its definition. -/
theorem addTo_elements (schema : TableSchema) :
    schema.elements.foldl TableElement.addTo ⟨schema.name, [], none, [], [], false⟩ = schema.definition := by
  have hunique (keys : List (List Text)) (draft : CreateTable) :
      (keys.map TableElement.unique).foldl TableElement.addTo draft =
        { draft with uniqueKeys := draft.uniqueKeys ++ keys } := by
    induction keys generalizing draft with
    | nil => simp
    | cons key keys ih => simp [ih, TableElement.addTo]
  have hreferences (foreignKeys : List ForeignKey) (draft : CreateTable) :
      (foreignKeys.map TableElement.reference).foldl TableElement.addTo draft =
        { draft with foreignKeys := draft.foreignKeys ++ foreignKeys.map ForeignKey.unnamed } := by
    induction foreignKeys generalizing draft with
    | nil => simp
    | cons foreignKey foreignKeys ih => simp [ih, TableElement.addTo]
  simp only [elements, List.foldl_append, foldl_addTo_columns, hunique, hreferences]
  cases hkey : schema.primaryKey.isEmpty <;> simp [hkey, TableElement.addTo, definition]

end TableSchema

/-! ## Lexemes -/

def namesLexemes (names : List Text) : List Lexeme :=
  .symbol .openParen :: (separated (fun name => [.name name]) names ++ [.symbol .closeParen])

theorem namesLexemes_append (names : List Text) (lexemes : List Lexeme) :
    namesLexemes names ++ lexemes =
      .symbol .openParen :: (separated (fun name => [.name name]) names ++ .symbol .closeParen :: lexemes) := by
  simp [namesLexemes]

def ColumnType.lexemes (type : ColumnType) : List Lexeme :=
  .name type.typeName.sql ::
    if type.params.isEmpty then []
    else .symbol .openParen :: (separated (fun number => [.number number]) type.params ++ [.symbol .closeParen])

def ReferentialAction.lexemes : ReferentialAction → List Lexeme
  | .restrict => [.name "RESTRICT"]
  | .cascade => [.name "CASCADE"]
  | .setNull => [.keyword "SET", .keyword "NULL"]

/-- Nothing is written for RESTRICT. -/
def actionLexemes (event : String) (action : ReferentialAction) : List Lexeme :=
  if action = .restrict then [] else .name "ON" :: .keyword event :: action.lexemes

def TableElement.lexemes : TableElement → List Lexeme
  | .column declared =>
      .name declared.name :: (declared.type.lexemes ++
        if declared.notNull then [.keyword "NOT", .keyword "NULL"] else [])
  | .primaryKey names => .name "PRIMARY" :: .name "KEY" :: namesLexemes names
  | .unique names => .name "UNIQUE" :: namesLexemes names
  | .reference foreignKey =>
      .name "FOREIGN" :: .name "KEY" :: (namesLexemes foreignKey.columns ++ .name "REFERENCES" ::
        .name foreignKey.refTable :: (namesLexemes foreignKey.refColumns ++
          (actionLexemes "DELETE" foreignKey.onDelete ++ actionLexemes "UPDATE" foreignKey.onUpdate)))

def TableSchema.lexemes (schema : TableSchema) : List Lexeme :=
  .keyword "CREATE" :: .keyword "TABLE" :: .name schema.name :: .symbol .openParen ::
    (separated TableElement.lexemes schema.elements ++ [.symbol .closeParen])

/-- The words that elements are written with, apart from keywords. -/
def tableWords : List String :=
  ["PRIMARY", "KEY", "UNIQUE", "FOREIGN", "REFERENCES", "ON", "RESTRICT", "CASCADE"]

theorem isCapital_of_mem_tableWords {word : String} (h : word ∈ tableWords) : IsCapital word := by
  have hcapital : ∀ word ∈ tableWords, IsCapital word := by decide
  exact hcapital word h

namespace Parser

variable {β : Type} {answer : β} {lexeme : Lexeme} {lexemes : List Lexeme} {follow : List Lexeme → Prop}
  {draft : CreateTable} {word : String}

/-! ## Reading an element -/

section
variable {test : Lexeme → Bool} {yes no : Parser β}

/-- The first lexeme is as asked. -/
theorem parses_yes (htest : test lexeme = true) (hlexeme : lexeme ≠ .endOfInput)
    (h : Parses yes lexemes answer follow) :
    Parses (acceptIf test >>= fun accepted => if accepted then yes else no) (lexeme :: lexemes) answer follow :=
  parses_accepted htest hlexeme h

/-- What comes first is not as asked. -/
theorem parses_none (htest : ∀ more, follow more → test (firstOf (lexemes ++ more)) = false)
    (h : Parses no lexemes answer follow) :
    Parses (acceptIf test >>= fun accepted => if accepted then yes else no) lexemes answer follow :=
  parses_declined htest h

theorem parses_no (htest : test lexeme = false) (h : Parses no (lexeme :: lexemes) answer follow) :
    Parses (acceptIf test >>= fun accepted => if accepted then yes else no) (lexeme :: lexemes) answer follow :=
  parses_none (fun _ _ => htest) h

/-- The word is one of those asked for. -/
theorem parses_word (hword : word ∈ tableWords) {words : List String} (hasked : words.contains word = true)
    (h : Parses yes lexemes answer follow) :
    Parses (acceptWord words >>= fun accepted => if accepted then yes else no)
      (.name (Text.ofString word) :: lexemes) answer follow :=
  parses_yes (by rw [(isCapital_of_mem_tableWords hword).isWord_name, hasked]) nofun h

/-- The word is none of those asked for. -/
theorem parses_otherWord (hword : word ∈ tableWords) {words : List String} (hasked : words.contains word = false)
    (h : Parses no (.name (Text.ofString word) :: lexemes) answer follow) :
    Parses (acceptWord words >>= fun accepted => if accepted then yes else no)
      (.name (Text.ofString word) :: lexemes) answer follow :=
  parses_no (by rw [(isCapital_of_mem_tableWords hword).isWord_name, hasked]) h

end

theorem parses_expectWord (hword : word ∈ tableWords) {next : Unit → Parser β}
    (h : Parses (next ()) lexemes answer follow) :
    Parses (expectWord word >>= next) (.name (Text.ofString word) :: lexemes) answer follow := by
  have hexpect : Parses (expectWord word) [.name (Text.ofString word)] () fun _ => True :=
    parses_word hword (by simp) parses_pure
  exact hexpect.bind h fun _ _ => trivial

def ElementEnd (more : List Lexeme) : Prop :=
  firstOf more = .symbol .comma ∨ firstOf more = .symbol .closeParen

theorem ElementEnd.isWord {more : List Lexeme} (h : ElementEnd more) (words : List String) :
    (firstOf more).isWord words = false := by
  obtain h | h := h <;> rw [h] <;> rfl

theorem ElementEnd.ne_keyword {more : List Lexeme} (h : ElementEnd more) (word : String) :
    firstOf more ≠ .keyword word := by
  obtain h | h := h <;> simp [h]

theorem ElementEnd.ne_nil {more : List Lexeme} (h : ElementEnd more) : more ≠ [] := by
  rintro rfl
  obtain h | h := h <;> cases h

theorem typeParameter_parses (number : Number) : Parses typeParameter [.number number] number follow :=
  parses_current_cons fun token htoken => by
    rw [htoken]
    exact parses_advance nofun parses_pure

theorem referentialAction_parses (action : ReferentialAction) :
    Parses referentialAction action.lexemes action follow := by
  cases action with
  | restrict => exact parses_word (by decide) (by decide) parses_pure
  | cascade =>
    refine parses_otherWord (by decide) (by decide) ?_
    exact parses_word (by decide) (by decide) parses_pure
  | setNull =>
    refine parses_no (by decide) ?_
    refine parses_no (by decide) ?_
    refine parses_yes (by decide) nofun ?_
    exact parses_expectKeyword _ parses_pure

section
variable {fuel : Nat} {foreignKey : ForeignKey}

theorem referentialActions_parses_nil (fuel : Nat) (foreignKey : ForeignKey) :
    Parses (referentialActions fuel foreignKey) [] foreignKey ElementEnd := by
  cases fuel with
  | zero => exact parses_pure
  | succ fuel => exact parses_none (fun more hmore => hmore.isWord _) parses_pure

theorem actionLexemes_cons {event : String} {action : ReferentialAction} (h : action ≠ .restrict) :
    actionLexemes event action = .name "ON" :: .keyword event :: action.lexemes :=
  if_neg h

theorem referentialActions_parses_update (action : ReferentialAction)
    (hfuel : (actionLexemes "UPDATE" action).length ≤ fuel) (hdefault : foreignKey.onUpdate = .restrict) :
    Parses (referentialActions fuel foreignKey) (actionLexemes "UPDATE" action)
      { foreignKey with onUpdate := action } ElementEnd := by
  by_cases hrestrict : action = .restrict
  · have hsame : { foreignKey with onUpdate := action } = foreignKey := by rw [hrestrict, ← hdefault]
    rw [hsame, hrestrict]
    exact referentialActions_parses_nil fuel foreignKey
  · rw [actionLexemes_cons hrestrict] at hfuel ⊢
    obtain ⟨fuel, rfl⟩ := Nat.exists_eq_succ_of_ne_zero (show fuel ≠ 0 by rintro rfl; simp at hfuel)
    refine parses_word (by decide) (by decide) ?_
    refine parses_no (by decide) ?_
    refine parses_yes (by decide) nofun ?_
    have haction : Parses referentialAction action.lexemes action fun _ => True := referentialAction_parses action
    rw [← List.append_nil action.lexemes]
    exact haction.bind (referentialActions_parses_nil fuel _) fun _ _ => trivial

theorem referentialActions_parses {onDelete onUpdate : ReferentialAction}
    (hfuel : (actionLexemes "DELETE" onDelete ++ actionLexemes "UPDATE" onUpdate).length ≤ fuel)
    (hdelete : foreignKey.onDelete = .restrict) (hupdate : foreignKey.onUpdate = .restrict) :
    Parses (referentialActions fuel foreignKey)
      (actionLexemes "DELETE" onDelete ++ actionLexemes "UPDATE" onUpdate)
      { foreignKey with onDelete := onDelete, onUpdate := onUpdate } ElementEnd := by
  by_cases hrestrict : onDelete = .restrict
  · have hsame : { foreignKey with onDelete := onDelete, onUpdate := onUpdate } =
        { foreignKey with onUpdate := onUpdate } := by rw [hrestrict, ← hdelete]
    rw [hrestrict] at hfuel
    rw [hsame, hrestrict]
    exact referentialActions_parses_update onUpdate hfuel hupdate
  · rw [actionLexemes_cons hrestrict] at hfuel ⊢
    obtain ⟨fuel, rfl⟩ := Nat.exists_eq_succ_of_ne_zero (show fuel ≠ 0 by rintro rfl; simp at hfuel)
    have hless : (actionLexemes "UPDATE" onUpdate).length ≤ fuel := by
      simp only [List.length_append, List.length_cons] at hfuel
      omega
    refine parses_word (by decide) (by decide) ?_
    refine parses_yes (by decide) nofun ?_
    have haction : Parses referentialAction onDelete.lexemes onDelete fun _ => True :=
      referentialAction_parses onDelete
    exact haction.bind (referentialActions_parses_update onUpdate hless hupdate) fun _ _ => trivial

end

/-- A reference without its name, from its columns on. -/
theorem references_parses {foreignKey : ForeignKey} (hcolumns : foreignKey.refColumns ≠ []) :
    Parses (references foreignKey.columns)
      (.name "REFERENCES" :: .name foreignKey.refTable :: (namesLexemes foreignKey.refColumns ++
        (actionLexemes "DELETE" foreignKey.onDelete ++ actionLexemes "UPDATE" foreignKey.onUpdate)))
      foreignKey.unnamed ElementEnd := by
  refine parses_expectWord (by decide) (parses_expectName _ _ ?_)
  have hactions : Parses (do
      referentialActions (← get).length
        ⟨foreignKey.columns, foreignKey.refTable, foreignKey.refColumns, .restrict, .restrict, none⟩)
      (actionLexemes "DELETE" foreignKey.onDelete ++ actionLexemes "UPDATE" foreignKey.onUpdate)
      foreignKey.unnamed ElementEnd := by
    refine parses_get fun tokens ⟨more, _, htokens⟩ => ?_
    have hlength := congrArg List.length htokens
    simp only [List.length_map, List.length_append] at hlength
    exact referentialActions_parses (by rw [List.length_append]; omega) rfl rfl
  rw [namesLexemes_append]
  exact parses_nameList _ hcolumns hactions

section
variable {fuel : Nat}

/-- NOT NULL or nothing behind the type of a column. -/
theorem columnOptions_parses (column : ColumnSpec) (hfuel : fuel ≠ 0) (hnull : column.notNull = false)
    (notNull : Bool) :
    Parses (columnOptions fuel column []) (if notNull then [.keyword "NOT", .keyword "NULL"] else [])
      ({ column with notNull := notNull }, []) ElementEnd := by
  have hend (fuel : Nat) (column : ColumnSpec) :
      Parses (columnOptions fuel column []) [] (column, []) ElementEnd := by
    cases fuel with
    | zero => exact parses_pure
    | succ fuel =>
      refine parses_none (fun more hmore => hmore.isWord _) ?_
      refine parses_none (fun more hmore => hmore.isWord _) ?_
      refine parses_none (fun more hmore => by simpa using hmore.ne_keyword "NOT") ?_
      refine parses_none (fun more hmore => by simpa using hmore.ne_keyword "NULL") ?_
      refine parses_none (fun more hmore => hmore.isWord _) ?_
      refine parses_current fun token ⟨more, hmore, htoken⟩ => ?_
      rw [if_neg (by rw [htoken, List.nil_append, hmore.isWord]; exact Bool.false_ne_true)]
      refine parses_current fun token ⟨more, hmore, htoken⟩ => ?_
      obtain hcomma | hclose := hmore
      · rw [htoken, List.nil_append, hcomma]
        exact parses_pure
      · rw [htoken, List.nil_append, hclose]
        exact parses_pure
  cases notNull with
  | false =>
    have hsame : { column with notNull := false } = column := by rw [← hnull]
    rw [hsame]
    exact hend fuel column
  | true =>
    obtain ⟨fuel, rfl⟩ := Nat.exists_eq_succ_of_ne_zero hfuel
    refine parses_no (by decide) ?_
    refine parses_no (by decide) ?_
    refine parses_yes (by decide) nofun ?_
    exact parses_expectKeyword _ (hend fuel _)

end

/-- The name of a type is written in capitals, and in no case as DOUBLE. -/
theorem upper_typeName (name : TypeName) :
    Text.upper name.sql = name.sql ∧ name.sql ≠ Text.ofString "DOUBLE" := by
  cases name <;> decide

theorem tableColumn_parses (draft : CreateTable) (column : Column) :
    Parses (tableColumn draft) (TableElement.column column).lexemes ((TableElement.column column).addTo draft)
      ElementEnd := by
  obtain ⟨hupper, hdouble⟩ := upper_typeName column.type.typeName
  have hfinish : Parses (do
      let options ← columnOptions (← get).length
        ⟨column.name, column.type.typeName.sql, column.type.params, false, false, false, false⟩ []
      return { draft with
        columns := draft.columns ++ [options.1],
        foreignKeys := draft.foreignKeys ++ options.2 })
      (if column.notNull then [.keyword "NOT", .keyword "NULL"] else [])
      ((TableElement.column column).addTo draft) ElementEnd := by
    refine parses_get fun tokens ⟨more, hmore, htokens⟩ => ?_
    have hfuel : tokens.length ≠ 0 := by
      have hlength := congrArg List.length htokens
      have hpos : more.length ≠ 0 := fun hnil => hmore.ne_nil (List.eq_nil_of_length_eq_zero hnil)
      rw [List.length_map, List.length_append] at hlength
      omega
    have hoptions := (columnOptions_parses
      ⟨column.name, column.type.typeName.sql, column.type.params, false, false, false, false⟩ hfuel rfl
      column.notNull).make fun options : ColumnSpec × List ForeignKey =>
        { draft with columns := draft.columns ++ [options.1], foreignKeys := draft.foreignKeys ++ options.2 }
    simpa [TableElement.addTo, Column.spec] using hoptions
  refine parses_current_cons fun token htoken => ?_
  rw [htoken]
  refine parses_advance nofun (parses_current_cons fun token htoken => ?_)
  rw [htoken]
  refine parses_advance nofun ?_
  dsimp only
  rw [hupper, if_neg hdouble]
  cases hparams : column.type.params with
  | nil =>
    rw [hparams] at hfinish
    refine parses_none (fun more hmore => ?_) ?_
    · cases column.notNull with
      | true => rfl
      | false => obtain h | h := hmore <;> simp [h]
    · simp only [pure_bind]
      exact hfinish
  | cons param params =>
    have hne : param :: params ≠ [] := List.cons_ne_nil _ _
    have hnumbers := commaSeparated_parses_closed hne fun number _ => typeParameter_parses number
    rw [hparams] at hfinish
    rw [if_neg (by simp)]
    have hlexemes (options : List Lexeme) :
        (.symbol .openParen :: (separated (fun number => [.number number]) (param :: params) ++
          [.symbol .closeParen])).append options = .symbol .openParen ::
          (separated (fun number => [.number number]) (param :: params) ++ .symbol .closeParen :: options) := by
      simp
    rw [hlexemes]
    refine parses_yes (by simp) nofun (hnumbers.bind (parses_expectSymbol _ _ ?_) fun _ _ => rfl)
    simpa only [pure_bind] using hfinish

def Addable (draft : CreateTable) : TableElement → Prop
  | .column column => (Lexeme.name column.name).isWord constraintWords = false
  | .primaryKey names => names ≠ [] ∧ draft.primaryKey = none
  | .unique names => names ≠ []
  | .reference foreignKey => foreignKey.columns ≠ [] ∧ foreignKey.refColumns ≠ []

theorem tableElement_parses {element : TableElement} (h : Addable draft element) :
    Parses (tableElement draft) element.lexemes (element.addTo draft) ElementEnd := by
  cases element with
  | column column =>
    obtain ⟨hconstraint, hprimary, hunique, hforeign⟩ := isWord_constraintWords_iff.mp h
    refine parses_no hconstraint ?_
    rw [pure_bind]
    refine parses_no hprimary (parses_no hunique (parses_no hforeign ?_))
    exact tableColumn_parses draft column
  | primaryKey names =>
    obtain ⟨hne, hnone⟩ := h
    refine parses_otherWord (by decide) (by decide) ?_
    rw [pure_bind]
    refine parses_word (by decide) (by decide) (parses_expectWord (by decide) ?_)
    rw [hnone, if_neg (by simp)]
    exact parses_nameList _ hne parses_pure
  | unique names =>
    refine parses_otherWord (by decide) (by decide) ?_
    rw [pure_bind]
    refine parses_otherWord (by decide) (by decide) (parses_word (by decide) (by decide) ?_)
    refine parses_declined (fun _ _ => rfl) (parses_declined (fun _ _ => rfl) ?_)
    exact parses_nameList _ h parses_pure
  | reference foreignKey =>
    refine parses_otherWord (by decide) (by decide) ?_
    rw [pure_bind]
    refine parses_otherWord (by decide) (by decide) (parses_otherWord (by decide) (by decide) ?_)
    refine parses_word (by decide) (by decide) (parses_expectWord (by decide) ?_)
    have hreference := (references_parses h.2).make fun foreignKey : ForeignKey =>
      { draft with foreignKeys := draft.foreignKeys ++ [{ foreignKey with name := none }] }
    rw [namesLexemes_append]
    exact parses_nameList _ h.1 hreference

/-! ## Reading a definition -/

/-- Every element can be read behind what those before it have added to a draft. -/
def AllAddable : CreateTable → List TableElement → Prop
  | _, [] => True
  | draft, element :: elements => Addable draft element ∧ AllAddable (element.addTo draft) elements

theorem allAddable_of_forall {elements : List TableElement} (h : ∀ element ∈ elements, ∀ draft, Addable draft element) :
    AllAddable draft elements := by
  induction elements generalizing draft with
  | nil => trivial
  | cons element elements ih =>
    obtain ⟨helement, hrest⟩ := List.forall_mem_cons.mp h
    exact ⟨helement draft, ih hrest⟩

theorem allAddable_append {elements more : List TableElement} :
    AllAddable draft (elements ++ more) ↔
      AllAddable draft elements ∧ AllAddable (elements.foldl TableElement.addTo draft) more := by
  induction elements generalizing draft with
  | nil => simp [AllAddable]
  | cons element elements ih => simp [AllAddable, ih, and_assoc]

theorem moreTableElements_parses {elements : List TableElement} {fuel : Nat} (hfuel : elements.length ≤ fuel)
    (h : AllAddable draft elements) :
    Parses (moreTableElements fuel draft) (elements.flatMap fun element => .symbol .comma :: element.lexemes)
      (elements.foldl TableElement.addTo draft) (firstOf · = .symbol .closeParen) := by
  induction elements generalizing draft fuel with
  | nil =>
    cases fuel with
    | zero => exact parses_pure
    | succ fuel => exact parses_none (fun more hmore => by simp [hmore]) parses_pure
  | cons element elements ih =>
    obtain ⟨helement, hrest⟩ := h
    cases fuel with
    | zero => cases hfuel
    | succ fuel =>
      have hmore := ih (Nat.le_of_succ_le_succ hfuel) hrest
      refine parses_yes (by simp) nofun ((tableElement_parses helement).bind hmore fun more hclose => ?_)
      cases elements with
      | nil => exact .inr hclose
      | cons other elements => exact .inl rfl

theorem createTable_parses {schema : TableSchema}
    (hname : (Lexeme.name schema.name).isWord ["IF"] = false) (hcolumns : schema.columns ≠ [])
    (h : AllAddable ⟨schema.name, [], none, [], [], false⟩ schema.elements) (follow : List Lexeme → Prop) :
    Parses createTable schema.lexemes schema.definition follow := by
  have hadd := schema.addTo_elements
  obtain ⟨element, elements, helements⟩ := List.exists_cons_of_ne_nil
    (show schema.elements ≠ [] by simp [TableSchema.elements, hcolumns])
  rw [helements] at h hadd
  obtain ⟨hfirst, hrest⟩ := h
  have hclose : Parses (do
      expectSymbol .closeParen "')' to close column list"
      if schema.definition.columns.isEmpty then malformed (.noColumns schema.name)
      else return schema.definition) [.symbol .closeParen] schema.definition follow := by
    refine parses_expectSymbol _ _ ?_
    rw [if_neg (by simpa [TableSchema.definition] using hcolumns)]
    exact parses_pure
  rw [TableSchema.lexemes, helements, separated, List.append_assoc]
  refine parses_expectKeyword _ (parses_expectKeyword _ (parses_no hname ?_))
  rw [pure_bind]
  refine parses_expectName _ _ (parses_expectSymbol _ _ ?_)
  refine (tableElement_parses hfirst).bind (parses_get fun tokens htokens => ?_) fun more _ => ?_
  · obtain ⟨more, -, htokens⟩ := htokens
    have hfuel : elements.length ≤ tokens.length := by
      have hlength := congrArg List.length htokens
      have hitems := length_le_flatMap elements (.symbol .comma) TableElement.lexemes
      rw [List.length_map, List.length_append, List.length_append] at hlength
      omega
    have hmore := moreTableElements_parses hfuel hrest
    rw [List.foldl_cons] at hadd
    rw [hadd] at hmore
    exact hmore.bind hclose fun _ _ => rfl
  · cases elements with
    | nil => exact .inr rfl
    | cons other elements => exact .inl rfl

/-- A table called IF is not read: NOT is missing behind the word that it is taken for. -/
theorem createTable_refuses {name : Text} (hname : (Lexeme.name name).isWord ["IF"] = true) (lexemes : List Lexeme) :
    Refuses createTable
      (.keyword "CREATE" :: .keyword "TABLE" :: .name name :: .symbol .openParen :: lexemes) := by
  have hkeyword (word : String) : Parses (expectKeyword word) [.keyword word] () fun _ => True :=
    parses_accepted (by simp) nofun parses_pure
  have hif : Parses (acceptWord ["IF"]) [.name name] true fun _ => True := acceptIf_parses hname nofun
  have hnot : Refuses (expectKeyword "NOT") (.symbol .openParen :: lexemes) := refuses_expect (by simp [firstOf])
  refine (hkeyword "CREATE").refuses_bind trivial ((hkeyword "TABLE").refuses_bind trivial ?_)
  refine hif.refuses_bind trivial ?_
  rw [if_pos rfl]
  exact hnot.bind

/-- A statement with a semicolon behind it. -/
theorem statement_parses_semicolon {statement : Statement}
    (h : Parses bareStatement lexemes statement (firstOf · = .symbol .semicolon)) :
    Parses Parser.statement (lexemes ++ [.symbol .semicolon]) statement (· = [.endOfInput]) := by
  refine h.bind (parses_accepted (by simp) nofun ?_) fun _ _ => rfl
  refine parses_current fun token ⟨more, hmore, htoken⟩ => ?_
  rw [if_pos (by rw [htoken, hmore]; rfl)]
  exact parses_pure

end Parser

end SnapshotSql
