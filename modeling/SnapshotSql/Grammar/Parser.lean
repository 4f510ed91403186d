import SnapshotSql.Failure
import SnapshotSql.Token

/-! # Parsers over a list of tokens

A parser takes tokens from the front of a list or rejects them. The list ends with the end of input,
which is never taken. Repetitions are bounded by the number of tokens that are left, since every
round takes at least one.
-/
namespace SnapshotSql

abbrev Parser := StateT (List Token) (Except SqlError)

namespace Parser

def lastToken : Token :=
  ⟨.endOfInput, 0, []⟩

def current : Parser Token :=
  fun tokens => .ok (tokens.headD lastToken, tokens)

def following : Parser Token :=
  fun tokens => .ok ((tokens.drop 1).headD lastToken, tokens)

/-- Passes the current token, unless it is the end of input. -/
def advance : Parser Unit :=
  fun tokens =>
    match tokens with
    | [] => .ok ((), [])
    | token :: rest => .ok ((), if token.lexeme = .endOfInput then token :: rest else rest)

def reject {α : Type} (error : SqlError) : Parser α :=
  fun _ => .error error

def refuse {α : Type} (feature : Unsupported) : Parser α :=
  reject (.unsupported feature)

def malformed {α : Type} (error : SyntaxError) : Parser α :=
  reject (.malformed error)

def complainAt {α : Type} (token : Token) (complaint : Complaint) : Parser α :=
  malformed (.near complaint token.fragment)

def complain {α : Type} (complaint : Complaint) : Parser α := do
  complainAt (← current) complaint

def atEnd : Parser Bool := do
  return (← current).lexeme = .endOfInput

def acceptIf (test : Lexeme → Bool) : Parser Bool := do
  if test (← current).lexeme then
    advance
    return true
  else
    return false

def acceptSymbol (symbol : Symbol) : Parser Bool :=
  acceptIf (· = .symbol symbol)

def acceptKeyword (word : String) : Parser Bool :=
  acceptIf (· = .keyword word)

def acceptWord (words : List String) : Parser Bool :=
  acceptIf (·.isWord words)

def expectSymbol (symbol : Symbol) (what : Text) : Parser Unit := do
  unless ← acceptSymbol symbol do complain (.expected what)

def expectKeyword (word : String) : Parser Unit := do
  unless ← acceptKeyword word do complain (.expected word)

def expectWord (word : String) : Parser Unit := do
  unless ← acceptWord [word] do complain (.expected word)

def expectName (what : Text) : Parser Text := do
  match (← current).lexeme with
  | .name word =>
      advance
      return word
  | _ => complain (.expected what)

def moreItems {α : Type} (item : Parser α) : Nat → Parser (List α)
  | 0 => return []
  | fuel + 1 => do
      if ← acceptSymbol .comma then
        let first ← item
        let rest ← moreItems item fuel
        return first :: rest
      else
        return []

def commaSeparated {α : Type} (item : Parser α) : Parser (List α) := do
  let first ← item
  let rest ← moreItems item (← get).length
  return first :: rest

def nameList (what : Text) : Parser (List Text) := do
  expectSymbol .openParen ("'(' before " ++ what)
  let names ← commaSeparated (expectName what)
  expectSymbol .closeParen ("')' after " ++ what)
  return names

end Parser

end SnapshotSql
