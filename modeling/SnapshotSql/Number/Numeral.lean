import SnapshotSql.Number.Binary64
import SnapshotSql.Text.Digit

/-! # Numerals

A decimal numeral is digits with at most one point among or beside them and an optional exponent of
ten. Digits of every script are read. A reader takes the longest numeral that a text begins with and
hands back the rest.
-/
namespace SnapshotSql.Numeral

def ofDigits (digits : List Nat) : Nat :=
  digits.foldl (fun value digit => 10 * value + digit) 0

def takeDigits : Text → List Nat × Text
  | [] => ([], [])
  | c :: cs =>
      match Text.decimalValue? c with
      | none => ([], c :: cs)
      | some digit => let (digits, rest) := takeDigits cs; (digit :: digits, rest)

/-- An optional sign; the answer tells whether it was a minus. -/
def takeSign : Text → Bool × Text
  | .char '+' :: cs => (false, cs)
  | .char '-' :: cs => (true, cs)
  | cs => (false, cs)

def takeInt? (cs : Text) : Option (Int × Text) :=
  let (negative, afterSign) := takeSign cs
  match takeDigits afterSign with
  | ([], _) => none
  | (digits, rest) =>
      let magnitude : Int := ofDigits digits
      some (if negative then -magnitude else magnitude, rest)

/-- An exponent: the letter e, an optional sign and digits. Without digits nothing is taken. -/
def takeExponent (cs : Text) : Int × Text :=
  match cs with
  | c :: rest =>
      if c = 'e' ∨ c = 'E' then
        match takeInt? rest with
        | some (exponent, rest) => (exponent, rest)
        | none => (0, cs)
      else (0, cs)
  | [] => (0, [])

/-- A numeral without sign: digits, then perhaps a point and digits; or a point and digits. -/
def takeUnsigned? (negative : Bool) (cs : Text) : Option (Binary64 × Text) :=
  let (whole, rest) := takeDigits cs
  let (fraction, rest) := match rest with
    | .char '.' :: afterPoint =>
        let (fraction, tail) := takeDigits afterPoint
        if whole.isEmpty && fraction.isEmpty then (fraction, rest) else (fraction, tail)
    | _ => ([], rest)
  if whole.isEmpty && fraction.isEmpty then none
  else
    let (exponent, rest) := takeExponent rest
    some (.ofDecimal negative (ofDigits (whole ++ fraction)) (exponent - fraction.length), rest)

/-- A numeral with an optional sign, or the word `Infinity` with one. -/
def takeFloat? (cs : Text) : Option (Binary64 × Text) :=
  let (negative, afterSign) := takeSign cs
  let word : Text := "Infinity"
  if word.isPrefixOf afterSign then some (.infinite negative, afterSign.drop word.length)
  else takeUnsigned? negative afterSign

def wholeText (n : Int) : Text :=
  .ofChars (if n < 0 then '-' :: Nat.toDigits 10 n.natAbs else Nat.toDigits 10 n.natAbs)

def hexValue? (c : CodePoint) : Option Nat :=
  let n := c.toNat
  if 0x30 ≤ n ∧ n ≤ 0x39 then some (n - 0x30)
  else if 0x61 ≤ n ∧ n ≤ 0x66 then some (n - 0x61 + 10)
  else if 0x41 ≤ n ∧ n ≤ 0x46 then some (n - 0x41 + 10)
  else none

def hex? : Text → Option Nat
  | .char '0' :: x :: digits =>
      if (x = 'x' ∨ x = 'X') ∧ digits ≠ [] then
        (digits.mapM hexValue?).map fun values => values.foldl (fun value digit => 16 * value + digit) 0
      else none
  | _ => none

end SnapshotSql.Numeral
