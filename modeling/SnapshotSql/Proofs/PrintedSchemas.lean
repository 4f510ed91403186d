import SnapshotSql.Proofs.TableElements

/-! # The text of a schema

The CREATE TABLE statement of a schema lays out the lexemes of its elements, each on a line of its own, and is
read as the definition that they add up to.
-/
namespace SnapshotSql

def TableElement.line (element : TableElement) : Text :=
  "  " ++ element.sql

namespace TableSchema

/-- The statement of a schema without the semicolon at its end. -/
def body (schema : TableSchema) : Text :=
  "CREATE TABLE " ++ schema.name ++ " (\n" ++
    List.intercalate ",\n" (schema.elements.map TableElement.line) ++ "\n)"

theorem sql_eq (schema : TableSchema) : schema.sql = schema.body ++ Text.ofString ";" := by
  have hparts : schema.elements.map TableElement.sql = schema.columns.map Column.sql ++
      (if schema.primaryKey.isEmpty then [] else [sql.listed "PRIMARY KEY" schema.primaryKey]) ++
        schema.uniqueKeys.map (sql.listed "UNIQUE") ++ schema.foreignKeys.map ForeignKey.sql := by
    cases hkey : schema.primaryKey.isEmpty <;> simp [elements, hkey, TableElement.sql, Function.comp_def]
  have hend : Text.ofString "\n);" = Text.ofString "\n)" ++ Text.ofString ";" := by decide
  rw [sql, ← hparts, List.map_map, hend, body, ← List.append_assoc]
  rfl

end TableSchema

def TableElement.Named : TableElement → Prop
  | .column declared => IsName declared.name
  | .primaryKey names => ∀ name ∈ names, IsName name
  | .unique names => ∀ name ∈ names, IsName name
  | .reference foreignKey => (∀ name ∈ foreignKey.columns, IsName name) ∧ IsName foreignKey.refTable ∧
      ∀ name ∈ foreignKey.refColumns, IsName name

namespace Lexer

theorem lays_typeName (name : TypeName) : Lays name.sql [.name name.sql] := by
  have hword : ∃ word : String, name.sql = Text.ofString word ∧ IsCapital word ∧ word ∉ keywords := by
    cases name <;> exact ⟨_, rfl, by decide⟩
  obtain ⟨word, hsql, hcapital, hkeyword⟩ := hword
  exact lays_name (hsql ▸ hcapital.isName hkeyword)

theorem lays_tableWord {word : String} (h : word ∈ tableWords) :
    Lays (Text.ofString word) [.name (Text.ofString word)] := by
  have hnames : ∀ word ∈ tableWords, word ∉ keywords := by decide
  exact lays_name ((isCapital_of_mem_tableWords h).isName (hnames word h))

theorem lays_type (type : ColumnType) : Lays type.sql type.lexemes := by
  have hname := lays_typeName type.typeName
  have hcount (count : Nat) : Lays (Numeral.wholeText count) [.number (.int count)] :=
    lays_spelling (spelled_int count)
  cases type with
  | decimal precision scale =>
    have hscale := ((hcount scale).append (boundary_cons (by decide))
      (lays_nil.sign (show Symbol.closeParen ∈ shortSigns by decide))).sign
      (show Symbol.comma ∈ shortSigns by decide)
    have hparams := ((hcount precision).append (boundary_cons (by decide)) hscale).sign
      (show Symbol.openParen ∈ shortSigns by decide)
    rw [ColumnType.sql, List.append_assoc, List.append_assoc, List.append_assoc]
    exact hname.append (boundary_cons (by decide)) hparams
  | char length =>
    exact hname.append (boundary_cons (by decide)) ((hcount length).enclose lays_nil)
  | varchar length =>
    exact hname.append (boundary_cons (by decide)) ((hcount length).enclose lays_nil)
  | _ => exact hname

theorem lays_action (action : ReferentialAction) : Lays action.sql action.lexemes := by
  have hnull : ∀ word ∈ ["SET", "NULL"], IsCapital word := by decide
  cases action with
  | restrict => exact lays_tableWord (show "RESTRICT" ∈ tableWords by decide)
  | cascade => exact lays_tableWord (show "CASCADE" ∈ tableWords by decide)
  | setNull => exact lays_words hnull

/-- What is written of an action begins with a space, if anything is written. -/
theorem lays_actionSql {event : String} (hevent : event ∈ keywords) (action : ReferentialAction) :
    Lays (ForeignKey.actionSql (Text.ofString event) action) (actionLexemes event action) ∧
      Boundary (ForeignKey.actionSql (Text.ofString event) action) := by
  unfold ForeignKey.actionSql actionLexemes
  split
  · exact ⟨lays_nil, boundary_nil⟩
  · have hword := (lays_spelling (spelled_keyword hevent)).append (boundary_cons (by decide))
      (lays_action action).space
    have hon := (lays_tableWord (show "ON" ∈ tableWords by decide)).append (boundary_cons (by decide)) hword.space
    refine ⟨?_, boundary_cons (by decide)⟩
    simpa [Text.ofString, Text.ofChars, Lexeme.spelling] using hon.space

theorem lays_column {column : Column} (h : IsName column.name) :
    Lays column.sql (TableElement.column column).lexemes := by
  have hnull : ∀ word ∈ ["NOT", "NULL"], IsCapital word := by decide
  have hoption : Lays (Text.ofString (if column.notNull then " NOT NULL" else ""))
      (if column.notNull then [.keyword "NOT", .keyword "NULL"] else []) ∧
      Boundary (Text.ofString (if column.notNull then " NOT NULL" else "")) := by
    cases column.notNull with
    | true => exact ⟨(lays_words hnull).space, boundary_cons (by decide)⟩
    | false => exact ⟨lays_nil, boundary_nil⟩
  have htype := (lays_type column.type).append hoption.2 hoption.1
  have hname := (lays_name h).append (boundary_cons (by decide)) htype.space
  rw [Column.sql, List.append_assoc, List.append_assoc]
  exact hname

theorem lays_foreignKey {foreignKey : ForeignKey} (h : (TableElement.reference foreignKey).Named) :
    Lays foreignKey.sql (TableElement.reference foreignKey).lexemes := by
  obtain ⟨hcolumns, htable, hrefColumns⟩ := h
  have hkey : ∀ word ∈ ["FOREIGN", "KEY"], IsCapital word := by decide
  obtain ⟨hdelete, hbeforeDelete⟩ := lays_actionSql (show "DELETE" ∈ keywords by decide) foreignKey.onDelete
  obtain ⟨hupdate, hbeforeUpdate⟩ := lays_actionSql (show "UPDATE" ∈ keywords by decide) foreignKey.onUpdate
  have hactions := hdelete.append hbeforeUpdate hupdate
  have hrefs := (lays_names hrefColumns).enclose hactions
  have htarget := (lays_name htable).append (boundary_cons (by decide)) hrefs
  have hword := (lays_tableWord (show "REFERENCES" ∈ tableWords by decide)).append (boundary_cons (by decide))
    htarget.space
  have hlist := (lays_names hcolumns).enclose hword.space
  have hwhole := (lays_words hkey).append (boundary_cons (by decide)) hlist.space
  rw [ForeignKey.sql, TableElement.lexemes, namesLexemes_append, namesLexemes_append]
  simp only [List.append_assoc]
  exact hwhole

theorem lays_listed {word : Text} {front : List Lexeme} (hword : Lays word front) {names : List Text}
    (hnames : ∀ name ∈ names, IsName name) :
    Lays (TableSchema.sql.listed word names) (front ++ namesLexemes names) := by
  have hlist := (lays_names hnames).enclose lays_nil
  have hwhole := hword.append (boundary_cons (by decide)) hlist.space
  rw [TableSchema.sql.listed, List.append_assoc, List.append_assoc]
  exact hwhole

theorem lays_element {element : TableElement} (h : element.Named) : Lays element.sql element.lexemes := by
  have hkey : ∀ word ∈ ["PRIMARY", "KEY"], IsCapital word := by decide
  cases element with
  | column column => exact lays_column h
  | primaryKey names => exact lays_listed (lays_words hkey) h
  | unique names => exact lays_listed (lays_tableWord (show "UNIQUE" ∈ tableWords by decide)) h
  | reference foreignKey => exact lays_foreignKey h

theorem lays_body {schema : TableSchema} (hname : IsName schema.name)
    (helements : ∀ element ∈ schema.elements, element.Named) : Lays schema.body schema.lexemes := by
  have hspaces : ∀ c ∈ Text.ofString "  ", Text.isBlank c = true := by decide
  have hbreak : ∀ c ∈ Text.ofString "\n", Text.isBlank c = true := by decide
  have hcreate : ∀ word ∈ ["CREATE", "TABLE"], IsCapital word := by decide
  have hlines := lays_separated hbreak fun element helement =>
    (lays_element (helements element helement)).gap hspaces
  have hend := lays_nil.sign (show Symbol.closeParen ∈ shortSigns by decide)
  have hlist := ((hlines.append (boundary_cons (by decide)) (hend.gap hbreak)).gap hbreak).sign
    (show Symbol.openParen ∈ shortSigns by decide)
  have htable := (lays_name hname).append (boundary_cons (by decide)) hlist.space
  have hwhole := (lays_words hcreate).append (boundary_cons (by decide)) htable.space
  rw [TableSchema.body, TableSchema.lexemes]
  simp only [List.append_assoc]
  exact hwhole

theorem lays_sql {schema : TableSchema} (hname : IsName schema.name)
    (helements : ∀ element ∈ schema.elements, element.Named) :
    Lays schema.sql (schema.lexemes ++ [.symbol .semicolon]) := by
  have hend := lays_nil.sign (show Symbol.semicolon ∈ shortSigns by decide)
  rw [TableSchema.sql_eq]
  exact (lays_body hname helements).append (boundary_cons (by decide)) hend

end Lexer

/-- What begins with CREATE and ends with a visible character has no blanks at its ends. -/
theorem solid_create (middle : Text) {last : Text} (h : Text.Solid last) :
    Text.Solid (Text.ofString "CREATE" ++ middle ++ last) := by
  have hcreate : Text.Solid (Text.ofString "CREATE") := Text.solid_of_forall (by decide) (by decide)
  exact hcreate.append h

theorem solid_body (schema : TableSchema) : Text.Solid schema.body := by
  have hend : Text.Solid (Text.ofString ")") := Text.solid_of_forall (by decide) (by decide)
  have hfront : Text.ofString "CREATE TABLE " = Text.ofString "CREATE" ++ Text.ofString " TABLE " := by decide
  have hback : Text.ofString "\n)" = Text.ofString "\n" ++ Text.ofString ")" := by decide
  simpa [TableSchema.body, hfront, hback] using solid_create (Text.ofString " TABLE " ++ schema.name ++
    Text.ofString " (\n" ++ List.intercalate (Text.ofString ",\n") (schema.elements.map TableElement.line) ++
      Text.ofString "\n") hend

theorem solid_sql (schema : TableSchema) : Text.Solid schema.sql := by
  have hend : Text.Solid (Text.ofString ";") := Text.solid_of_forall (by decide) (by decide)
  have hwhole : Text.Solid (schema.body ++ [] ++ Text.ofString ";") := (solid_body schema).append hend
  rwa [List.append_nil, ← schema.sql_eq] at hwhole

/-- The statement of a schema is read as the definition that it describes, with or without its semicolon. -/
theorem parse_sql {schema : TableSchema} (hname : IsName schema.name)
    (hword : (Lexeme.name schema.name).isWord ["IF"] = false) (hcolumns : schema.columns ≠ [])
    (hadd : Parser.AllAddable ⟨schema.name, [], none, [], [], false⟩ schema.elements)
    (helements : ∀ element ∈ schema.elements, element.Named) :
    parse schema.sql = .ok (.createTable schema.definition) ∧
      parse schema.body = .ok (.createTable schema.definition) := by
  have hbare (follow : List Lexeme → Prop) :
      Parser.Parses Parser.bareStatement schema.lexemes (.createTable schema.definition) follow := by
    refine Parser.parses_current_cons fun token htoken => ?_
    rw [htoken]
    refine Parser.parses_following fun token ⟨_, _, htoken⟩ => ?_
    have htable : token.lexeme = .keyword "TABLE" := htoken
    rw [htable]
    exact (Parser.createTable_parses hword hcolumns hadd follow).make Statement.createTable
  exact ⟨parse_of_lays (solid_sql schema) (Lexer.lays_sql hname helements) (Parser.statement_parses_semicolon (hbare _)),
    parse_of_lays (solid_body schema) (Lexer.lays_body hname helements) (Parser.statement_parses (hbare _))⟩

/-- The statement of a table called IF is not read. -/
theorem parse_body_ne_ok {schema : TableSchema} (hname : IsName schema.name)
    (hword : (Lexeme.name schema.name).isWord ["IF"] = true)
    (helements : ∀ element ∈ schema.elements, element.Named) (statement : Statement) :
    parse schema.body ≠ .ok statement := by
  refine parse_ne_ok_of_lays (solid_body schema) (Lexer.lays_body hname helements) ?_ statement
  have hbare : Parser.Refuses Parser.bareStatement (schema.lexemes ++ [.endOfInput]) := by
    refine Parser.refuses_current fun token htoken => ?_
    have hcreate : token.lexeme = .keyword "CREATE" := htoken
    rw [hcreate]
    refine Parser.refuses_following fun token htoken => ?_
    have htable : token.lexeme = .keyword "TABLE" := htoken
    rw [htable]
    exact (Parser.createTable_refuses hword _).bind
  exact hbare.bind

end SnapshotSql
