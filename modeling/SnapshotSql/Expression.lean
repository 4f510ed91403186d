import SnapshotSql.Like
import SnapshotSql.Row

/-! # Conditions and assigned expressions

Conditions are built from comparisons with AND, OR and parentheses, and evaluate to true or false on
every row: a null is not unknown but compares like any other value. The right-hand side of an
assignment is an operand or one arithmetic operation on two operands.
-/
namespace SnapshotSql

inductive Operand where
  | column (name : Text)
  | literal (value : Scalar)
  deriving DecidableEq

def Operand.value (row : Row) : Operand → Scalar
  | .column name => row.resolve name
  | .literal value => value

inductive Comparison where
  | equal
  | notEqual
  | less
  | greater
  | lessEqual
  | greaterEqual
  deriving DecidableEq

def Comparison.holds : Comparison → Scalar → Scalar → Bool
  | .equal, a, b => a.strictEquals b
  | .notEqual, a, b => !a.strictEquals b
  | .less, a, b => a.lessThan b
  | .greater, a, b => a.greaterThan b
  | .lessEqual, a, b => a.lessEqual b
  | .greaterEqual, a, b => a.greaterEqual b

inductive Condition where
  | compare (left : Operand) (comparison : Comparison) (right : Operand)
  | like (left : Operand) (pattern : Text) (negated : Bool)
  | inList (left : Operand) (items : List Operand) (negated : Bool)
  | between (left low high : Operand) (negated : Bool)
  | isNull (left : Operand) (negated : Bool)
  | and (left right : Condition)
  | or (left right : Condition)
  | group (inner : Condition)
  deriving DecidableEq

/-- The text that LIKE matches: null counts as empty. -/
def Scalar.likeText : Scalar → Text
  | .null => ""
  | value => value.toText

def Condition.holds (row : Row) : Condition → Bool
  | .compare left comparison right => comparison.holds (left.value row) (right.value row)
  | .like left pattern negated =>
      Like.accepts pattern (left.value row).likeText != negated
  | .inList left items negated =>
      (items.any fun item => (left.value row).strictEquals (item.value row)) != negated
  | .between left low high negated =>
      let value := (left.value row).toNumber
      ((low.value row).toNumber.le value && value.le (high.value row).toNumber) != negated
  | .isNull left negated => (left.value row).isNull != negated
  | .and left right => left.holds row && right.holds row
  | .or left right => left.holds row || right.holds row
  | .group inner => inner.holds row

/-- The operations on two operands of an assignment. The star of `t.*` is read as an operation too,
and divides. -/
inductive Arithmetic where
  | add
  | subtract
  | multiply
  | pointStar
  | divide
  deriving DecidableEq

inductive SetExpression where
  | operand (source : Operand)
  | arithmetic (left : Operand) (operation : Arithmetic) (right : Operand)
  deriving DecidableEq

/-- Sum, difference and product of integers are exact, and one float makes both sides floats. -/
def Number.combine (onInts : Int → Int → Int) (onFloats : Binary64 → Binary64 → Binary64) :
    Number → Number → Number
  | .int a, .int b => .int (onInts a b)
  | a, b => .float (onFloats a.toFloat b.toFloat)

/-- A sum is a concatenation when one side is no number; the other operations are then NaN. -/
def Arithmetic.apply (operation : Arithmetic) (left right : Scalar) : Scalar :=
  let a := left.toNumber
  let b := right.toNumber
  match operation with
  | .add =>
      if a.isNan || b.isNan then .text (left.likeText ++ right.likeText)
      else (a.combine (· + ·) .add b).toScalar
  | .subtract => (a.combine (· - ·) .sub b).toScalar
  | .multiply => (a.combine (· * ·) .mul b).toScalar
  | .pointStar => .float (a.toFloat.div b.toFloat)
  | .divide => .float (a.toFloat.div b.toFloat)

def SetExpression.value (row : Row) : SetExpression → Scalar
  | .operand source => source.value row
  | .arithmetic left operation right => operation.apply (left.value row) (right.value row)

end SnapshotSql
