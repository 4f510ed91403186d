import SnapshotSql.SourceText
import SnapshotSql.Statement
import SnapshotSql.Grammar.Condition

/-! # The grammar of SELECT

The clauses stand in a fixed order and are optional after FROM. Joins, subqueries and several tables
are recognised in order to be refused.
-/
namespace SnapshotSql.Parser

/-- A label after AS, which may be quoted, or a bare name. An empty label counts as none. -/
def itemLabel (default : Text) : Parser Text := do
  let chosen ←
    if ← acceptKeyword "AS" then
      match (← current).lexeme with
      | .name word =>
          advance
          pure word
      | .text value =>
          advance
          pure value
      | _ => complain (.expected "alias after AS")
    else
      match (← current).lexeme with
      | .name word =>
          advance
          pure word
      | _ => pure ""
  return if chosen = "" then default else chosen

def aggregateArgument (function : AggregateFunction) : Parser Text := do
  match (← current).lexeme with
  | .symbol .star =>
      advance
      return "*"
  | .name column =>
      advance
      return column
  | .keyword "DISTINCT" => refuse (.distinctAggregate function.name)
  | _ => complain (.aggregateArgument function.name)

def aggregateOf? (word : Text) : Option AggregateFunction :=
  aggregateFunctions.find? (·.name = Text.upper word)

def selectItem : Parser SelectItem := do
  match (← current).lexeme with
  | .symbol .star =>
      advance
      return .star none
  | .name word =>
      match (← following).lexeme with
      | .symbol .pointStar =>
          advance
          advance
          return .star (some word)
      | .symbol .openParen =>
          match aggregateOf? word with
          | some function =>
              advance
              advance
              let argument ← aggregateArgument function
              expectSymbol .closeParen ("')' after " ++ function.name ++ " argument")
              return .aggregate function argument (← itemLabel function.label)
          | none => complain (.selectFunction word)
      | _ =>
          advance
          return .column word (← itemLabel (SourceText.labelOf word))
  | _ => complain .selectItem

def orderItem : Parser OrderItem := do
  let column ← expectName "ORDER BY column"
  if ← acceptKeyword "DESC" then return ⟨column, true⟩
  else
    let _ ← acceptKeyword "ASC"
    return ⟨column, false⟩

def count (clause : Text) : Parser Nat := do
  match (← current).lexeme with
  | .number (.int value) =>
      advance
      return value.toNat
  | _ => complain (.wholeNumber clause)

/-- The limit and the offset: LIMIT n, LIMIT n OFFSET m, LIMIT m, n, or OFFSET m alone. -/
def bounds : Parser (Option Nat × Nat) := do
  if ← acceptKeyword "LIMIT" then
    let first ← count "LIMIT"
    if ← acceptKeyword "OFFSET" then return (some first, ← count "OFFSET")
    else if ← acceptSymbol .comma then return (some (← count "LIMIT"), first)
    else return (some first, 0)
  else if ← acceptKeyword "OFFSET" then return (none, ← count "OFFSET")
  else return (none, 0)

def conditionAfter (word : String) : Parser (Option Condition) := do
  if ← acceptKeyword word then return some (← condition)
  else return none

def listAfter {α : Type} (word : String) (item : Parser α) : Parser (List α) := do
  if ← acceptKeyword word then
    expectKeyword "BY"
    commaSeparated item
  else return []

def tableAlias : Parser (Option Text) := do
  if ← acceptKeyword "AS" then return some (← expectName "table alias")
  else
    match (← current).lexeme with
    | .name word =>
        advance
        return some word
    | _ => return none

def select : Parser Select := do
  expectKeyword "SELECT"
  let distinct ← acceptKeyword "DISTINCT"
  let items ← commaSeparated selectItem
  unless ← acceptKeyword "FROM" do complain .selectWithoutFrom
  if (← get).any (·.lexeme = .keyword "JOIN") then refuse .join
  if (← current).lexeme = .symbol .openParen then refuse .subquery
  let table ← expectName "table name"
  let alternative ← tableAlias
  if (← current).lexeme = .symbol .comma then refuse .severalTables
  let condition ← conditionAfter "WHERE"
  let groupBy ← listAfter "GROUP" (expectName "GROUP BY column")
  let having ← conditionAfter "HAVING"
  let orderBy ← listAfter "ORDER" orderItem
  let (limit, offset) ← bounds
  return ⟨items, table, alternative, distinct, condition, groupBy, having, orderBy, limit, offset⟩

end SnapshotSql.Parser
