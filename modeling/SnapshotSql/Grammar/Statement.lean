import SnapshotSql.Grammar.Query
import SnapshotSql.Grammar.Table
import SnapshotSql.Lexer

/-! # The grammar of statements

A text holds one statement, perhaps with a semicolon behind it. What follows it is refused as a
second statement if it begins like one. The main functions read a whole text: `parse` a statement and
`parseCondition` a condition.
-/
namespace SnapshotSql

namespace Parser

def createView : Parser CreateView := do
  expectKeyword "CREATE"
  expectKeyword "VIEW"
  let view ← expectName "view name"
  if ← acceptKeyword "AS" then
    if (← current).lexeme = .keyword "SELECT" then return ⟨view, ← select⟩
    else malformed .viewShape
  else malformed .viewShape

def dropTable : Parser DropTable := do
  expectKeyword "DROP"
  expectKeyword "TABLE"
  let ifExists ←
    if ← acceptWord ["IF"] then
      expectWord "EXISTS"
      pure true
    else pure false
  return ⟨← expectName "table name", ifExists⟩

/-- A literal of VALUES; an unquoted word stands for the text it spells. -/
def insertedValue : Parser Scalar := do
  match ← operand with
  | .column name => return .text name
  | .literal value => return value

def insertedTuple : Parser (List Scalar) := do
  expectSymbol .openParen "'(' before VALUES tuple"
  let values ← commaSeparated insertedValue
  expectSymbol .closeParen "')' after VALUES tuple"
  return values

def insert : Parser Insert := do
  expectKeyword "INSERT"
  expectKeyword "INTO"
  let table ← expectName "table name"
  let columns ←
    if (← current).lexeme = .symbol .openParen then
      pure (some (← nameList "column names"))
    else pure none
  if ← acceptKeyword "VALUES" then
    return ⟨table, columns, ← commaSeparated insertedTuple⟩
  else if (← current).lexeme = .keyword "SELECT" then refuse .insertFromSelect
  else malformed .insertShape

def assignmentSides : Parser (Text × SetExpression) := do
  let column ← expectName "column name"
  expectSymbol .equal "'='"
  return (column, ← setExpression)

def inAssignment {α : Type} (start : Token) (parser : Parser α) : Parser α :=
  fun tokens =>
    match parser.run tokens with
    | .error (.malformed (.near complaint place)) =>
        .error (.malformed (.assignment start.fragment (some (complaint, place))))
    | result => result

/-- An assignment to a column, whose qualifier is dropped; nothing else may stand behind it. -/
def assignment : Parser Assignment := do
  let start ← current
  let (column, expression) ← inAssignment start assignmentSides
  let closed := match (← current).lexeme with
    | .symbol .comma => true
    | .symbol .semicolon => true
    | .endOfInput => true
    | .keyword "WHERE" => true
    | _ => false
  if closed then return ⟨bareName column, expression⟩
  else malformed (.assignment start.fragment none)

def update : Parser Update := do
  expectKeyword "UPDATE"
  let table ← expectName "table name"
  if ← acceptKeyword "SET" then
    let assignments ← commaSeparated assignment
    return ⟨table, assignments, ← conditionAfter "WHERE"⟩
  else malformed .updateShape

def delete : Parser Delete := do
  expectKeyword "DELETE"
  expectKeyword "FROM"
  let table ← expectName "table name"
  return ⟨table, ← conditionAfter "WHERE"⟩

def refusal (lexeme : Lexeme) : Unsupported :=
  match (Text.upper lexeme.display).toString with
  | "BEGIN" => .transaction
  | "START" => .transaction
  | "COMMIT" => .transaction
  | "ROLLBACK" => .transaction
  | "ALTER" => .alteration
  | _ => .statement lexeme.display

def bareStatement : Parser Statement := do
  match (← current).lexeme with
  | .keyword "CREATE" =>
      match (← following).lexeme with
      | .keyword "TABLE" => return .createTable (← createTable)
      | .keyword "VIEW" => return .createView (← createView)
      | _ => refuse .otherCreate
  | .keyword "DROP" =>
      match (← following).lexeme with
      | .keyword "TABLE" => return .dropTable (← dropTable)
      | _ => refuse .otherDrop
  | .keyword "INSERT" => return .insert (← insert)
  | .keyword "UPDATE" => return .update (← update)
  | .keyword "DELETE" => return .delete (← delete)
  | .keyword "SELECT" => return .select (← select)
  | .endOfInput => malformed .emptyStatement
  | lexeme => refuse (refusal lexeme)

/-- A statement and nothing behind it but a semicolon. -/
def statement : Parser Statement := do
  let result ← bareStatement
  let _ ← acceptSymbol .semicolon
  let next ← current
  if next.lexeme = .endOfInput then return result
  else if (SourceText.kind? next.rest).isSome then malformed .severalStatements
  else complain .restOfStatement

def wholeCondition : Parser Condition := do
  let result ← condition
  if ← atEnd then return result
  else complain .restOfExpression

end Parser

def parse (text : Text) : Except Failure Statement := do
  let tokens ← tokenize (Text.trim text)
  orFail (Parser.statement.run' tokens)

def parseCondition (text : Text) : Except Failure Condition := do
  let tokens ← tokenize text
  orFail (Parser.wholeCondition.run' tokens)

end SnapshotSql
