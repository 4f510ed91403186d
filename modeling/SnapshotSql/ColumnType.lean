import SnapshotSql.Failure
import SnapshotSql.Scalar
import SnapshotSql.Text.LetterCase

/-! # Column types and casts

The seven types of columns and the cast of a value to each. Null stays null in every column. A cast
to DECIMAL rounds to the scale, halves upward, and has no answer when the scaled number leaves the
range of floats. Integers and texts of any length are cast here; the interpreter that carries out a cast
breaks off at integers of too many digits and at texts of too many characters.
-/
namespace SnapshotSql

/-- A type without its parameters. -/
inductive TypeName where
  | int
  | real
  | decimal
  | text
  | char
  | varchar
  | boolean
  deriving DecidableEq

namespace TypeName

def sql : TypeName → Text
  | .int => "INT"
  | .real => "REAL"
  | .decimal => "DECIMAL"
  | .text => "TEXT"
  | .char => "CHAR"
  | .varchar => "VARCHAR"
  | .boolean => "BOOLEAN"

def ofSql? (word : Text) : Option TypeName :=
  match (Text.upper word).toString with
  | "INT" => some .int
  | "INTEGER" => some .int
  | "REAL" => some .real
  | "FLOAT" => some .real
  | "DOUBLE" => some .real
  | "DECIMAL" => some .decimal
  | "DEC" => some .decimal
  | "NUMERIC" => some .decimal
  | "TEXT" => some .text
  | "CHAR" => some .char
  | "VARCHAR" => some .varchar
  | "BOOLEAN" => some .boolean
  | "BOOL" => some .boolean
  | _ => none

end TypeName

inductive ColumnType where
  | int
  | real
  | decimal (precision scale : Nat)
  | text
  | char (length : Nat)
  | varchar (length : Nat)
  | boolean
  deriving DecidableEq

namespace ColumnType

def typeName : ColumnType → TypeName
  | .int => .int
  | .real => .real
  | .decimal _ _ => .decimal
  | .text => .text
  | .char _ => .char
  | .varchar _ => .varchar
  | .boolean => .boolean

def sql : ColumnType → Text
  | .decimal precision scale =>
      "DECIMAL(" ++ Numeral.wholeText precision ++ "," ++ Numeral.wholeText scale ++ ")"
  | .char length => "CHAR(" ++ Numeral.wholeText length ++ ")"
  | .varchar length => "VARCHAR(" ++ Numeral.wholeText length ++ ")"
  | type => type.typeName.sql

end ColumnType

namespace Scalar

def asInt : Scalar → Scalar
  | .int value => .int value
  | .float value =>
      match value.truncate? with
      | some whole => .int whole
      | none => .float value
  | value => (leadingInt value.toText).toScalar

def asFloat : Scalar → Binary64
  | .int value => .ofInt value
  | .float value => value
  | value => leadingFloat value.toText

/-- A float rounded to so many decimal places, halves upward: the scaled number is rounded as a
float before its floor is taken. A power of ten above 10³⁰⁸ is no float. -/
def roundToScale (value : Binary64) (scale : Nat) : Except Failure Binary64 :=
  if 308 < scale then .error .decimalOverflow
  else
    let scaled := (value.mul (.ofInt (Binary64.tenPow scale))).add (.ofQuotient false Binary64.one 2)
    match scaled.floor? with
    | some whole => .ok (.ofQuotient (whole < 0) (whole.natAbs * Binary64.one) (Binary64.tenPow scale))
    | none => .error .decimalOverflow

/-- The finite float that a DECIMAL holds for a value; zero for what is no finite number. -/
def asDecimal (value : Scalar) (scale : Nat) : Except Failure Scalar :=
  let number := value.asFloat
  (roundToScale (if number.isFinite then number else .zero) scale).map .float

def clip (length : Nat) (text : Text) : Text :=
  text.take length

/-- The first characters of a text, filled with spaces. -/
def fit (length : Nat) (text : Text) : Text :=
  let chars := text.take length
  chars ++ List.replicate (length - chars.length) (.char ' ')

def castTo (type : ColumnType) (value : Scalar) : Except Failure Scalar :=
  match value, type with
  | .null, _ => .ok .null
  | value, .int => .ok value.asInt
  | value, .real => .ok (.float value.asFloat)
  | value, .decimal _ scale => value.asDecimal scale
  | value, .text => .ok (.text value.toText)
  | value, .char length => .ok (.text (fit length value.toText))
  | value, .varchar length => .ok (.text (clip length value.toText))
  | value, .boolean => .ok (.bool value.truthy)

end Scalar

end SnapshotSql
