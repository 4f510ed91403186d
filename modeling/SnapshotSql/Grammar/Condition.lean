import SnapshotSql.Expression
import SnapshotSql.Grammar.Parser

/-! # The grammar of conditions and assigned expressions

OR binds weaker than AND, and both group to the left. A condition in parentheses is kept as a group.
Nesting is bounded by the number of tokens, of which every level takes one.
-/
namespace SnapshotSql.Parser

def comparisonOf? : Symbol → Option Comparison
  | .equal => some .equal
  | .notEqual => some .notEqual
  | .angles => some .notEqual
  | .less => some .less
  | .greater => some .greater
  | .lessEqual => some .lessEqual
  | .greaterEqual => some .greaterEqual
  | _ => none

def arithmeticOf? : Symbol → Option Arithmetic
  | .plus => some .add
  | .minus => some .subtract
  | .star => some .multiply
  | .pointStar => some .pointStar
  | .slash => some .divide
  | _ => none

def negate : Number → Number
  | .int value => .int (-value)
  | .float value => .float value.neg

def atSubquery : Parser Bool := do
  return (← current).lexeme = .symbol .openParen && (← following).lexeme = .keyword "SELECT"

/-- A column, a quoted text, a number with an optional sign, TRUE, FALSE or NULL. -/
def operand : Parser Operand := do
  let token ← current
  match token.lexeme with
  | .name word =>
      advance
      if (← current).lexeme = .symbol .openParen then complainAt token (.functionCall word)
      else return .column word
  | .text value =>
      advance
      return .literal (.text value)
  | .number value =>
      advance
      return .literal value.toScalar
  | .keyword "TRUE" =>
      advance
      return .literal (.bool true)
  | .keyword "FALSE" =>
      advance
      return .literal (.bool false)
  | .keyword "NULL" =>
      advance
      return .literal .null
  | .symbol .minus =>
      match (← following).lexeme with
      | .number value =>
          advance
          advance
          return .literal (negate value).toScalar
      | _ => complain (.expected "column name or literal")
  | .symbol .plus =>
      match (← following).lexeme with
      | .number value =>
          advance
          advance
          return .literal value.toScalar
      | _ => complain (.expected "column name or literal")
  | _ =>
      if ← atSubquery then refuse .subquery
      else complain (.expected "column name or literal")

/-- The operands in parentheses after IN; there may be none. -/
def inItems : Parser (List Operand) := do
  expectSymbol .openParen "'(' after IN"
  if (← current).lexeme = .keyword "SELECT" then refuse .subquery
  else
    let items ←
      if (← current).lexeme = .symbol .closeParen then pure [] else commaSeparated operand
    expectSymbol .closeParen "')' to close IN list"
    return items

def comparison : Parser Condition := do
  let left ← operand
  if ← acceptKeyword "IS" then
    let negated ← acceptKeyword "NOT"
    if ← acceptKeyword "NULL" then return .isNull left negated
    else complain .nullAfterIs
  else
    let negated ← acceptKeyword "NOT"
    if ← acceptKeyword "LIKE" then
      match (← current).lexeme with
      | .text pattern =>
          advance
          return .like left pattern negated
      | _ => complain .patternAfterLike
    else if ← acceptKeyword "IN" then
      return .inList left (← inItems) negated
    else if ← acceptKeyword "BETWEEN" then
      let low ← operand
      if ← acceptKeyword "AND" then return .between left low (← operand) negated
      else complain .betweenBounds
    else if negated then
      complain (.expected "IN, LIKE or BETWEEN after NOT")
    else
      match (← current).lexeme with
      | .symbol symbol =>
          match comparisonOf? symbol with
          | some comparison =>
              advance
              return .compare left comparison (← operand)
          | none => complain (.expected "comparison operator")
      | _ => complain (.expected "comparison operator")

def chainTail (word : String) (join : Condition → Condition → Condition)
    (item : Parser Condition) : Nat → Condition → Parser Condition
  | 0, left => return left
  | fuel + 1, left => do
      if ← acceptKeyword word then
        let right ← item
        chainTail word join item fuel (join left right)
      else
        return left

def chain (word : String) (join : Condition → Condition → Condition)
    (item : Parser Condition) : Parser Condition := do
  let first ← item
  chainTail word join item (← get).length first

def primary (inner : Parser Condition) : Parser Condition := do
  if (← current).lexeme = .symbol .openParen then
    if ← atSubquery then refuse .subquery
    else
      advance
      let condition ← inner
      expectSymbol .closeParen "')'"
      return .group condition
  else
    comparison

def conditionWithin : Nat → Parser Condition
  | 0 => comparison
  | depth + 1 => chain "OR" .or (chain "AND" .and (primary (conditionWithin depth)))

def condition : Parser Condition := do
  conditionWithin (← get).length

def setExpression : Parser SetExpression := do
  let left ← operand
  match (← current).lexeme with
  | .symbol symbol =>
      match arithmeticOf? symbol with
      | some operation =>
          advance
          return .arithmetic left operation (← operand)
      | none => return .operand left
  | _ => return .operand left

end SnapshotSql.Parser
