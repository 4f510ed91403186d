import SnapshotSql.Number.Shortest
import SnapshotSql.Number.Numeral
import SnapshotSql.Text.Blank
import SnapshotSql.Text.Quoted

/-! # Scalar values

The values a row holds, and the loose rules by which they become numbers, texts and truth values.
Reading a text as a number never fails: what does not look like a number is NaN. Ordering compares
two texts by code points and everything else as numbers, exactly; NaN is in no order. Equality does
not convert between kinds, and an integer equals the float of the same value.
-/
namespace SnapshotSql

inductive Scalar where
  | null
  | bool (value : Bool)
  | int (value : Int)
  | float (value : Binary64)
  | text (value : Text)
  deriving DecidableEq

instance : Inhabited Scalar := ⟨.null⟩

inductive Number where
  | int (value : Int)
  | float (value : Binary64)
  deriving DecidableEq

namespace Number

def nan : Number :=
  .float .nan

def isNan : Number → Bool
  | .int _ => false
  | .float value => value.isNan

def toFloat : Number → Binary64
  | .int value => .ofInt value
  | .float value => value

def toScalar : Number → Scalar
  | .int value => .int value
  | .float value => .float value

/-- The place of a number in the order: below, among or above the finite ones, and the exact count
of binary64 units. NaN has no place. -/
def place? : Number → Option (Int × Int)
  | .int value => some (0, value * Binary64.one)
  | .float .nan => none
  | .float (.infinite negative) => some (if negative then -1 else 1, 0)
  | .float (.finite negative units _) => some (0, Binary64.signed negative units)

def lt (a b : Number) : Bool :=
  match a.place?, b.place? with
  | some p, some q => p.1 < q.1 || (p.1 = q.1 && p.2 < q.2)
  | _, _ => false

def le (a b : Number) : Bool :=
  match a.place?, b.place? with
  | some p, some q => p.1 < q.1 || (p.1 = q.1 && p.2 ≤ q.2)
  | _, _ => false

/-- The same value, whatever the kind of number; NaN is not equal to itself. -/
def eq (a b : Number) : Bool :=
  match a.place?, b.place? with
  | some p, some q => p = q
  | _, _ => false

end Number

namespace Scalar

def isNull : Scalar → Bool
  | .null => true
  | _ => false

def isNumber : Scalar → Bool
  | .int _ => true
  | .float _ => true
  | _ => false

def isNan : Scalar → Bool
  | .float value => value.isNan
  | _ => false

/-- A text read as a number: blank is zero, then integers, hexadecimal integers, infinities and
decimal numerals; anything else is NaN. -/
def numberOfText (text : Text) : Number :=
  let chars := Text.trim text
  if chars = [] then .int 0
  else match Numeral.takeInt? chars with
    | some (value, []) => .int value
    | _ => match Numeral.hex? chars with
      | some value => .int value
      | none => match Numeral.takeFloat? chars with
        | some (value, []) => .float value
        | _ => .nan

def toNumber : Scalar → Number
  | .null => .int 0
  | .bool value => .int (if value then 1 else 0)
  | .int value => .int value
  | .float value => .float value
  | .text value => numberOfText value

/-- A whole float below 10²¹ is written as an integer, other floats in their shortest form. -/
def floatText (value : Binary64) : Text :=
  match value with
  | .nan => "NaN"
  | .infinite negative => if negative then "-Infinity" else "Infinity"
  | .finite _ units _ =>
      match value.whole? with
      | some whole =>
          if units < Binary64.tenPow 21 * Binary64.one then Numeral.wholeText whole else value.text
      | none => value.text

def toText : Scalar → Text
  | .null => "null"
  | .bool value => if value then "true" else "false"
  | .int value => Numeral.wholeText value
  | .float value => floatText value
  | .text value => value

def truthy : Scalar → Bool
  | .null => false
  | .bool value => value
  | .int value => value ≠ 0
  | .float .nan => false
  | .float (.infinite _) => true
  | .float (.finite _ units _) => units ≠ 0
  | .text value => !value.isEmpty

def leadingInt (text : Text) : Number :=
  match Numeral.takeInt? (text.dropWhile Text.isBlank) with
  | some (value, _) => .int value
  | none => .nan

def leadingFloat (text : Text) : Binary64 :=
  match Numeral.takeFloat? (text.dropWhile Text.isBlank) with
  | some (value, _) => value
  | none => .nan

def strictEquals : Scalar → Scalar → Bool
  | .null, .null => true
  | .bool a, .bool b => a = b
  | .text a, .text b => a = b
  | .int a, .int b => a = b
  | .int a, .float b => Number.eq (.int a) (.float b)
  | .float a, .int b => Number.eq (.float a) (.int b)
  | .float a, .float b => Number.eq (.float a) (.float b)
  | _, _ => false

def lessThan : Scalar → Scalar → Bool
  | .text a, .text b => Text.lt a b
  | a, b => Number.lt a.toNumber b.toNumber

def greaterThan (a b : Scalar) : Bool :=
  lessThan b a

def lessEqual : Scalar → Scalar → Bool
  | .text a, .text b => !Text.lt b a
  | a, b => Number.le a.toNumber b.toNumber

def greaterEqual (a b : Scalar) : Bool :=
  lessEqual b a

def display : Scalar → Text
  | .null => "None"
  | .bool value => if value then "True" else "False"
  | .int value => Numeral.wholeText value
  | .float value => value.text
  | .text value => Text.displayQuoted value

end Scalar

end SnapshotSql
