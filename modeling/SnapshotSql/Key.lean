import SnapshotSql.Scalar

/-! # Keys

The text under which a list of values is looked up. Two lists have one key when their values agree
place by place: whole floats are written as integers, so equal numbers agree, and texts are quoted,
so that no text can imitate another value or a separator.
-/
namespace SnapshotSql.Key

def part : Scalar → Text
  | .null => "null"
  | .bool value => if value then "true" else "false"
  | .int value => Numeral.wholeText value
  | .float value =>
      match value.whole? with
      | some whole => Numeral.wholeText whole
      | none => match value with
        | .infinite negative => if negative then "-Infinity" else "Infinity"
        | .nan => "NaN"
        | _ => value.text
  | .text value => Text.asciiQuoted value

def ofValues (values : List Scalar) : Text :=
  "[" ++ List.intercalate ", " (values.map part) ++ "]"

def hasNull (values : List Scalar) : Bool :=
  values.any Scalar.isNull

def display (values : List Scalar) : Text :=
  List.intercalate ", " (values.map Scalar.display)

end SnapshotSql.Key
