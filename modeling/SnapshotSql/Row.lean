import SnapshotSql.Key
import SnapshotSql.OrderedMap

/-! # Rows and the names of their columns

A row maps column names to values. A column may be missing from a row, which is not the same as a
null value, though every lookup reads it as null. A name with points may stand for the column named
after its last point.
-/
namespace SnapshotSql

abbrev Row := OrderedMap Scalar

def splitQualified (name : Text) : Option (Text × Text) :=
  let isInside (c : CodePoint) : Bool := c ≠ '.'
  let reversed := name.reverse
  match reversed.dropWhile isInside with
  | [] => none
  | _ :: qualifier => some (qualifier.reverse, (reversed.takeWhile isInside).reverse)

def bareName (name : Text) : Text :=
  match splitQualified name with
  | some (_, bare) => bare
  | none => name

namespace Row

def value (row : Row) (column : Text) : Scalar :=
  (row.get? column).getD .null

/-- The value of a possibly qualified column: the name as it stands comes first. -/
def resolve (row : Row) (name : Text) : Scalar :=
  match row.get? name with
  | some value => value
  | none =>
      match splitQualified name with
      | some (_, bare) => row.value bare
      | none => .null

def values (row : Row) (columns : List Text) : List Scalar :=
  columns.map row.value

end Row

end SnapshotSql
