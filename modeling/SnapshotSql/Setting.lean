import SnapshotSql.Scalar
import SnapshotSql.Text.LetterCase

/-! # Settings

A setting has a default, and a text from the environment may replace it. The kind of the default says
how the text is read: as a truth value, as a whole number, or as it stands.
-/
namespace SnapshotSql.Setting

def isTrueWord (text : Text) : Bool :=
  let word := Text.toString ((Text.trim text).map Text.lowerChar)
  ["1", "true", "yes", "on"].contains word

/-- Digits, in groups that single underscores may separate. -/
def groupedDigits? : Text → Option (List Nat)
  | [] => none
  | [c] => (Text.decimalValue? c).map ([·])
  | c :: .char '_' :: cs => do return (← Text.decimalValue? c) :: (← groupedDigits? cs)
  | c :: cs => do return (← Text.decimalValue? c) :: (← groupedDigits? cs)

/-- The blanks that may stand around a whole number: all but the four separators of ASCII. -/
def isPadding (c : CodePoint) : Bool :=
  Text.isBlank c && !(0x1C ≤ c.toNat && c.toNat ≤ 0x1F)

def wholeNumber? (text : Text) : Option Int :=
  let (negative, digits) := Numeral.takeSign (Text.trimWhere isPadding text)
  (groupedDigits? digits).map fun digits =>
    if negative then -(Numeral.ofDigits digits : Int) else Numeral.ofDigits digits

/-- The value of a setting; none if its text is no whole number and has to be one. -/
def value? (raw : Option Text) (default : Scalar) : Option Scalar :=
  match raw, default with
  | none, default => some default
  | some raw, .bool _ => some (.bool (isTrueWord raw))
  | some raw, .int _ => (wholeNumber? raw).map .int
  | some raw, _ => some (.text raw)

end SnapshotSql.Setting
