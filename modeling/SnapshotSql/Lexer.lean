import SnapshotSql.Failure
import SnapshotSql.Token

/-! # From characters to tokens

At each place the longest lexeme is taken: a quoted text, in which the quote is doubled; a number
with at most one point and an optional exponent; a word, in which a point may stand before a letter;
or a sign. Blanks separate tokens and are dropped. The list of tokens ends with the end of input.
Integers of any length are read here; the interpreter breaks off at those of too many digits.
-/
namespace SnapshotSql.Lexer

inductive Obstacle where
  | unexpectedCharacter
  | unterminatedText
  | malformedNumber
  | unreadableDigits
  deriving DecidableEq

/-- The text up to the closing quote, and the number of characters taken, closing quote included. -/
def takeQuoted (quote : CodePoint) : Text → Option (Text × Nat)
  | [] => none
  | [c] => if c = quote then some ([], 1) else none
  | c :: d :: cs =>
      if c = quote then
        if d = quote then (takeQuoted quote cs).map fun (text, count) => (quote :: text, count + 2)
        else some ([], 1)
      else (takeQuoted quote (d :: cs)).map fun (text, count) => (c :: text, count + 1)

/-- The digits and the point that a number begins with; none if there is a second point. The flag
tells whether there has been a point. -/
def takeMantissa (point : Bool) : Text → Option (Text × Bool)
  | [] => some ([], point)
  | c :: cs =>
      if c = '.' then
        if point then none
        else (takeMantissa true cs).map fun (chars, point) => (c :: chars, point)
      else if Text.isDigit c then
        (takeMantissa point cs).map fun (chars, point) => (c :: chars, point)
      else some ([], point)

def takeExponent : Text → Text
  | e :: c :: cs =>
      if e = 'e' ∨ e = 'E' then
        if Text.isDigit c then e :: c :: cs.takeWhile Text.isDigit
        else if c = '+' ∨ c = '-' then
          match cs.takeWhile Text.isDigit with
          | [] => []
          | digits => e :: c :: digits
        else []
      else []
  | _ => []

/-- A name or a number cannot begin here because a word goes on. -/
def beginsWord : Text → Bool
  | c :: _ => Text.isLetter c || c = '_'
  | [] => false

/-- A number without point and exponent is an integer. Digits without decimal value look like a
number and cannot be read. -/
def readNumber (fractional : Bool) (chars : Text) : Except Obstacle Number :=
  if fractional then
    match Numeral.takeUnsigned? false chars with
    | some (value, []) => .ok (.float value)
    | _ => .error .unreadableDigits
  else
    match Numeral.takeDigits chars with
    | (digits, []) => .ok (.int (Numeral.ofDigits digits))
    | _ => .error .unreadableDigits

def takeNumber (chars : Text) : Except Obstacle (Number × Nat) :=
  match takeMantissa false chars with
  | none => .error .malformedNumber
  | some (mantissa, point) =>
      let exponent := takeExponent (chars.drop mantissa.length)
      let count := mantissa.length + exponent.length
      if beginsWord (chars.drop count) then .error .malformedNumber
      else (readNumber (point || !exponent.isEmpty) (mantissa ++ exponent)).map (·, count)

/-- The characters that continue a word; a point does if a letter or underscore follows it. -/
def takeWord : Text → Text
  | [] => []
  | c :: cs =>
      if Text.isWordChar c then c :: takeWord cs
      else if c = '.' ∧ beginsWord cs then c :: takeWord cs
      else []

def takeSymbol? : Text → Option (Symbol × Nat)
  | .char '!' :: .char '=' :: _ => some (.notEqual, 2)
  | .char '<' :: .char '>' :: _ => some (.angles, 2)
  | .char '<' :: .char '=' :: _ => some (.lessEqual, 2)
  | .char '>' :: .char '=' :: _ => some (.greaterEqual, 2)
  | .char '(' :: _ => some (.openParen, 1)
  | .char ')' :: _ => some (.closeParen, 1)
  | .char ',' :: _ => some (.comma, 1)
  | .char ';' :: _ => some (.semicolon, 1)
  | .char '*' :: _ => some (.star, 1)
  | .char '+' :: _ => some (.plus, 1)
  | .char '-' :: _ => some (.minus, 1)
  | .char '/' :: _ => some (.slash, 1)
  | .char '=' :: _ => some (.equal, 1)
  | .char '<' :: _ => some (.less, 1)
  | .char '>' :: _ => some (.greater, 1)
  | .char '.' :: .char '*' :: _ => some (.pointStar, 2)
  | _ => none

/-- A number begins with a digit, or with a point and a digit. -/
def beginsNumber : Text → Bool
  | .char '.' :: c :: _ => Text.isDigit c
  | c :: _ => Text.isDigit c
  | [] => false

def takeLexeme (chars : Text) : Except Obstacle (Lexeme × Nat) :=
  match chars with
  | [] => .error .unexpectedCharacter
  | c :: cs =>
      if c = '\'' ∨ c = '"' then
        match takeQuoted c cs with
        | none => .error .unterminatedText
        | some (text, count) => .ok (.text text, count + 1)
      else if beginsNumber chars then
        (takeNumber chars).map fun (number, count) => (.number number, count)
      else if Text.isLetter c ∨ c = '_' then
        let word := c :: takeWord cs
        .ok (.ofWord word, word.length)
      else match takeSymbol? chars with
        | some (symbol, count) => .ok (.symbol symbol, count)
        | none => .error .unexpectedCharacter

def Obstacle.at (obstacle : Obstacle) (position : Nat) (c : CodePoint) (cs : Text) : Failure :=
  let fragment := (c :: cs).take 20
  match obstacle with
  | .unexpectedCharacter => .rejected (.malformed (.unexpectedCharacter c position fragment))
  | .unterminatedText => .rejected (.malformed (.unterminatedText position fragment))
  | .malformedNumber => .rejected (.malformed (.malformedNumber position fragment))
  | .unreadableDigits => .unreadableDigits

/-- The tokens from a position on, after `skip` characters that belong to the token before. -/
def scan (position skip : Nat) : Text → Except Failure (List Token)
  | [] => .ok [⟨.endOfInput, position, []⟩]
  | c :: cs =>
      match skip with
      | skip + 1 => scan (position + 1) skip cs
      | 0 =>
          if Text.isBlank c then scan (position + 1) 0 cs
          else
            match takeLexeme (c :: cs) with
            | .error obstacle => .error (obstacle.at position c cs)
            | .ok (lexeme, count) =>
                (scan (position + 1) (count - 1) cs).map (⟨lexeme, position, c :: cs⟩ :: ·)

end SnapshotSql.Lexer

namespace SnapshotSql

def tokenize (text : Text) : Except Failure (List Token) :=
  Lexer.scan 0 0 text

end SnapshotSql
