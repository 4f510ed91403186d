import SnapshotSql.Statement
import SnapshotSql.Grammar.Parser

/-! # The grammar of CREATE TABLE

Columns and table constraints stand in one list and are gathered into a definition from left to
right. A reference written behind a column counts as a foreign key of the table.
-/
namespace SnapshotSql.Parser

def typeParameter : Parser Number := do
  match (← current).lexeme with
  | .number value =>
      advance
      return value
  | _ => complain .typeParameter

def referentialAction : Parser ReferentialAction := do
  if ← acceptWord ["RESTRICT"] then return .restrict
  else if ← acceptWord ["CASCADE"] then return .cascade
  else if ← acceptKeyword "SET" then
    expectKeyword "NULL"
    return .setNull
  else if ← acceptWord ["NO"] then
    expectWord "ACTION"
    return .restrict
  else complain (.expected "RESTRICT, CASCADE or SET NULL")

/-- The actions of a foreign key, each after ON; a later one replaces an earlier one. -/
def referentialActions : Nat → ForeignKey → Parser ForeignKey
  | 0, foreignKey => return foreignKey
  | fuel + 1, foreignKey => do
      if ← acceptWord ["ON"] then
        if ← acceptKeyword "DELETE" then
          let action ← referentialAction
          referentialActions fuel { foreignKey with onDelete := action }
        else if ← acceptKeyword "UPDATE" then
          let action ← referentialAction
          referentialActions fuel { foreignKey with onUpdate := action }
        else complain (.expected "DELETE or UPDATE after ON")
      else
        return foreignKey

def references (columns : List Text) : Parser ForeignKey := do
  expectWord "REFERENCES"
  let refTable ← expectName "referenced table"
  let refColumns ← nameList "referenced columns"
  referentialActions (← get).length ⟨columns, refTable, refColumns, .restrict, .restrict, none⟩

def columnOptions : Nat → ColumnSpec → List ForeignKey → Parser (ColumnSpec × List ForeignKey)
  | 0, column, foreignKeys => return (column, foreignKeys)
  | fuel + 1, column, foreignKeys => do
      if ← acceptWord ["PRIMARY"] then
        expectWord "KEY"
        columnOptions fuel { column with primary := true } foreignKeys
      else if ← acceptWord ["UNIQUE"] then
        columnOptions fuel { column with unique := true } foreignKeys
      else if ← acceptKeyword "NOT" then
        expectKeyword "NULL"
        columnOptions fuel { column with notNull := true } foreignKeys
      else if ← acceptKeyword "NULL" then
        columnOptions fuel column foreignKeys
      else if ← acceptWord ["AUTO_INCREMENT", "AUTOINCREMENT"] then
        columnOptions fuel { column with autoIncrement := true } foreignKeys
      else if (← current).lexeme.isWord ["REFERENCES"] then
        let foreignKey ← references [column.name]
        columnOptions fuel column (foreignKeys ++ [foreignKey])
      else
        match (← current).lexeme with
        | .symbol .comma => return (column, foreignKeys)
        | .symbol .closeParen => return (column, foreignKeys)
        | _ => complain (.columnSyntaxIn column.name)

def tableColumn (draft : CreateTable) : Parser CreateTable := do
  match (← current).lexeme with
  | .name name =>
      advance
      match (← current).lexeme with
      | .name type =>
          advance
          let typeName := Text.upper type
          if typeName = "DOUBLE" then
            let _ ← acceptWord ["PRECISION"]
          let params ←
            if ← acceptSymbol .openParen then
              let params ← commaSeparated typeParameter
              expectSymbol .closeParen "')' after type parameters"
              pure params
            else pure []
          let (column, foreignKeys) ←
            columnOptions (← get).length ⟨name, typeName, params, false, false, false, false⟩ []
          return { draft with
            columns := draft.columns ++ [column],
            foreignKeys := draft.foreignKeys ++ foreignKeys }
      | _ => complain (.columnType name)
  | _ => complain .columnSyntax

/-- A column or a constraint of the table. Only a foreign key keeps the name of its constraint. -/
def tableElement (draft : CreateTable) : Parser CreateTable := do
  let constraint ←
    if ← acceptWord ["CONSTRAINT"] then
      pure (some (← expectName "constraint name"))
    else pure none
  if ← acceptWord ["PRIMARY"] then
    expectWord "KEY"
    if draft.primaryKey.isSome then malformed (.severalPrimaryKeys draft.table)
    else
      let columns ← nameList "primary key columns"
      return { draft with primaryKey := some columns }
  else if ← acceptWord ["UNIQUE"] then
    let _ ← acceptWord ["KEY", "INDEX"]
    let _ ← acceptIf fun lexeme => match lexeme with | .name _ => true | _ => false
    let columns ← nameList "unique columns"
    return { draft with uniqueKeys := draft.uniqueKeys ++ [columns] }
  else if ← acceptWord ["FOREIGN"] then
    expectWord "KEY"
    let columns ← nameList "foreign key columns"
    let foreignKey ← references columns
    return { draft with
      foreignKeys := draft.foreignKeys ++ [{ foreignKey with name := constraint }] }
  else if constraint.isSome then
    complain (.expected "PRIMARY KEY, UNIQUE or FOREIGN KEY after CONSTRAINT name")
  else
    tableColumn draft

def moreTableElements : Nat → CreateTable → Parser CreateTable
  | 0, draft => return draft
  | fuel + 1, draft => do
      if ← acceptSymbol .comma then
        let draft ← tableElement draft
        moreTableElements fuel draft
      else
        return draft

def createTable : Parser CreateTable := do
  expectKeyword "CREATE"
  expectKeyword "TABLE"
  let ifNotExists ←
    if ← acceptWord ["IF"] then
      expectKeyword "NOT"
      expectWord "EXISTS"
      pure true
    else pure false
  let table ← expectName "table name"
  expectSymbol .openParen "'(' after table name"
  let first ← tableElement ⟨table, [], none, [], [], ifNotExists⟩
  let definition ← moreTableElements (← get).length first
  expectSymbol .closeParen "')' to close column list"
  if definition.columns.isEmpty then malformed (.noColumns table)
  else return definition

end SnapshotSql.Parser
