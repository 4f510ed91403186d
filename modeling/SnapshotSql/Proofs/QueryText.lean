import SnapshotSql.Grammar.Statement

/-! # The canonical text of a query

A query is written as the list of its lexemes, with a space between any two of them, except that a
number follows its minus at once. Every selected item has its label in quotes behind AS, a quote inside
a quoted text is doubled, and parentheses stand around groups, lists after IN and arguments only. A
limit and an offset are written if there is one.
-/
namespace SnapshotSql

/-- Every quote is written twice. -/
def Text.doubled (quote : CodePoint) (value : Text) : Text :=
  value.flatMap fun c => if c = quote then [quote, quote] else [c]

theorem Text.doubled_cons_self (quote : CodePoint) (value : Text) :
    Text.doubled quote (quote :: value) = quote :: quote :: Text.doubled quote value := by
  simp [Text.doubled]

theorem Text.doubled_cons_ne {c quote : CodePoint} (h : c ≠ quote) (value : Text) :
    Text.doubled quote (c :: value) = c :: Text.doubled quote value := by
  simp [Text.doubled, h]

def Text.inQuotes (value : Text) : Text :=
  .char '\'' :: (Text.doubled '\'' value ++ [.char '\''])

def Lexeme.spelling : Lexeme → Text
  | .keyword word => word
  | .name word => word
  | .number (.int value) => Numeral.wholeText value
  | .number (.float value) => value.text
  | .text value => Text.inQuotes value
  | .symbol value => value.text
  | .endOfInput => []

/-- The spellings of lexemes with spaces between them, but none behind a minus. -/
def spelled : List Lexeme → Text
  | [] => []
  | [lexeme] => lexeme.spelling
  | lexeme :: lexemes =>
      lexeme.spelling ++ (if lexeme = .symbol .minus then [] else [.char ' ']) ++ spelled lexemes

def separated {α : Type} (lexemes : α → List Lexeme) : List α → List Lexeme
  | [] => []
  | item :: items => lexemes item ++ items.flatMap fun other => .symbol .comma :: lexemes other

/-- A negative number is a minus and the number without it. -/
def Scalar.lexemes : Scalar → List Lexeme
  | .null => [.keyword "NULL"]
  | .bool value => [.keyword (if value then "TRUE" else "FALSE")]
  | .int value =>
      if value < 0 then [.symbol .minus, .number (.int (-value))] else [.number (.int value)]
  | .float (.finite true units h) => [.symbol .minus, .number (.float (.finite false units h))]
  | .float value => [.number (.float value)]
  | .text value => [.text value]

def Operand.lexemes : Operand → List Lexeme
  | .column name => [.name name]
  | .literal value => value.lexemes

def Comparison.symbol : Comparison → Symbol
  | .equal => .equal
  | .notEqual => .notEqual
  | .less => .less
  | .greater => .greater
  | .lessEqual => .lessEqual
  | .greaterEqual => .greaterEqual

def wordIf (word : String) (present : Bool) : List Lexeme :=
  if present then [.keyword word] else []

def Condition.lexemes : Condition → List Lexeme
  | .compare left comparison right => left.lexemes ++ .symbol comparison.symbol :: right.lexemes
  | .like left pattern negated => left.lexemes ++ wordIf "NOT" negated ++ [.keyword "LIKE", .text pattern]
  | .inList left items negated =>
      left.lexemes ++ wordIf "NOT" negated ++ .keyword "IN" :: .symbol .openParen ::
        separated Operand.lexemes items ++ [.symbol .closeParen]
  | .between left low high negated =>
      left.lexemes ++ wordIf "NOT" negated ++ .keyword "BETWEEN" :: low.lexemes ++
        .keyword "AND" :: high.lexemes
  | .isNull left negated => left.lexemes ++ .keyword "IS" :: wordIf "NOT" negated ++ [.keyword "NULL"]
  | .and left right => left.lexemes ++ .keyword "AND" :: right.lexemes
  | .or left right => left.lexemes ++ .keyword "OR" :: right.lexemes
  | .group inner => .symbol .openParen :: inner.lexemes ++ [.symbol .closeParen]

def SelectItem.lexemes : SelectItem → List Lexeme
  | .star none => [.symbol .star]
  | .star (some table) => [.name table, .symbol .pointStar]
  | .column name label => [.name name, .keyword "AS", .text label]
  | .aggregate function argument label =>
      [.name function.name, .symbol .openParen,
        if argument = "*" then .symbol .star else .name argument,
        .symbol .closeParen, .keyword "AS", .text label]

def OrderItem.lexemes (item : OrderItem) : List Lexeme :=
  .name item.column :: wordIf "DESC" item.descending

def aliasLexemes : Option Text → List Lexeme
  | none => []
  | some name => [.keyword "AS", .name name]

def conditionLexemes (word : String) : Option Condition → List Lexeme
  | none => []
  | some condition => .keyword word :: condition.lexemes

def listLexemes {α : Type} (word : String) (lexemes : α → List Lexeme) : List α → List Lexeme
  | [] => []
  | items => .keyword word :: .keyword "BY" :: separated lexemes items

/-- LIMIT with a number, if there is a limit, and OFFSET with a number, if it is not zero. -/
def boundLexemes (limit : Option Nat) (offset : Nat) : List Lexeme :=
  (match limit with
    | none => []
    | some count => [.keyword "LIMIT", .number (.int count)]) ++
    if offset = 0 then [] else [.keyword "OFFSET", .number (.int offset)]

def Select.clauses (query : Select) : List Lexeme :=
  conditionLexemes "WHERE" query.condition ++
    (listLexemes "GROUP" (fun name => [.name name]) query.groupBy ++
      (conditionLexemes "HAVING" query.having ++
        (listLexemes "ORDER" OrderItem.lexemes query.orderBy ++ boundLexemes query.limit query.offset)))

def Select.lexemes (query : Select) : List Lexeme :=
  .keyword "SELECT" :: (wordIf "DISTINCT" query.distinct ++
    (separated SelectItem.lexemes query.items ++ .keyword "FROM" :: .name query.table ::
      (aliasLexemes query.tableAlias ++ query.clauses)))

def Delete.lexemes (deletion : Delete) : List Lexeme :=
  .keyword "DELETE" :: .keyword "FROM" :: .name deletion.table ::
    conditionLexemes "WHERE" deletion.condition

def Select.print (query : Select) : Text :=
  spelled query.lexemes

def Delete.print (deletion : Delete) : Text :=
  spelled deletion.lexemes

end SnapshotSql
