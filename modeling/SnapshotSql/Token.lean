import SnapshotSql.Scalar
import SnapshotSql.Text.LetterCase

/-! # Tokens of SQL

A token is a lexeme, the number of characters before it, and the text from its first character on.
Reserved words are lexemes of their own, spelled in capitals. All other words are names, which may
contain points, and are compared without regard to case where a clause expects a particular one.
-/
namespace SnapshotSql

/-- The signs of SQL. Inequality has two spellings, and the star of `t.*` comes with its point. -/
inductive Symbol where
  | equal
  | notEqual
  | angles
  | less
  | greater
  | lessEqual
  | greaterEqual
  | plus
  | minus
  | star
  | pointStar
  | slash
  | openParen
  | closeParen
  | comma
  | semicolon
  deriving DecidableEq

def Symbol.text : Symbol → Text
  | .equal => "="
  | .notEqual => "!="
  | .angles => "<>"
  | .less => "<"
  | .greater => ">"
  | .lessEqual => "<="
  | .greaterEqual => ">="
  | .plus => "+"
  | .minus => "-"
  | .star => "*"
  | .pointStar => ".*"
  | .slash => "/"
  | .openParen => "("
  | .closeParen => ")"
  | .comma => ","
  | .semicolon => ";"

inductive Lexeme where
  | keyword (word : String)
  | name (word : Text)
  | number (value : Number)
  | text (value : Text)
  | symbol (value : Symbol)
  | endOfInput
  deriving DecidableEq

def keywords : List String := [
  "SELECT", "DISTINCT", "FROM", "WHERE", "GROUP", "BY", "HAVING", "ORDER", "ASC", "DESC", "LIMIT",
  "OFFSET", "AS", "JOIN", "AND", "OR", "NOT", "IN", "BETWEEN", "IS", "LIKE", "NULL", "TRUE",
  "FALSE", "INSERT", "INTO", "VALUES", "UPDATE", "SET", "DELETE", "CREATE", "TABLE", "VIEW", "DROP"]

namespace Lexeme

def ofWord (word : Text) : Lexeme :=
  let capitals := (Text.upper word).toString
  if keywords.contains capitals then .keyword capitals else .name word

def display : Lexeme → Text
  | .keyword word => word
  | .name word => word
  | .number value => value.toScalar.display
  | .text value => value
  | .symbol value => value.text
  | .endOfInput => ""

/-- A reserved word or a name that is spelled as one of the given words in capitals. -/
def isWord (words : List String) : Lexeme → Bool
  | .keyword word => words.contains word
  | .name word => words.contains (Text.upper word).toString
  | _ => false

end Lexeme

structure Token where
  lexeme : Lexeme
  position : Nat
  rest : Text
  deriving DecidableEq

/-- Up to thirty characters from a token on, as messages quote them. -/
def Token.fragment (token : Token) : Text :=
  match token.lexeme with
  | .endOfInput => "<end of input>"
  | _ => Text.trim (token.rest.take 30)

end SnapshotSql
