import SnapshotSql.Scalar
import SnapshotSql.Text.Encoding

/-! # JSON

JSON trees over scalar values. Integers and floats are kept apart: a number with a point or an
exponent is a float. The words NaN and Infinity are read and written as numbers. Of two members with
one name the later counts. A text may hold surrogates, each written as an escape. Writing uses ASCII
alone.
-/
namespace SnapshotSql

inductive Json where
  | scalar (value : Scalar)
  | array (items : List Json)
  | object (members : List (Text × Json))

namespace Json

def null : Json := .scalar .null
def bool (value : Bool) : Json := .scalar (.bool value)
def int (value : Int) : Json := .scalar (.int value)
def text (value : Text) : Json := .scalar (.text value)
def texts (values : List Text) : Json := .array (values.map text)

instance : Inhabited Json := ⟨null⟩

/-- The value of a member, the last one of its name; none for what is not an object. -/
def member? (name : Text) : Json → Option Json
  | .object members => members.reverse.lookup name
  | _ => none

/-- A value that counts as absent: null, false, zero, or an empty text, array or object. -/
def isEmpty : Json → Bool
  | .scalar value => !value.isNan && !value.truthy
  | .array items => items.isEmpty
  | .object members => members.isEmpty

def scalarText : Scalar → Text
  | .null => "null"
  | .bool value => if value then "true" else "false"
  | .int value => Numeral.wholeText value
  | .float .nan => "NaN"
  | .float (.infinite negative) => if negative then "-Infinity" else "Infinity"
  | .float value => value.text
  | .text value => Text.asciiQuoted value

mutual

def render : Json → Text
  | .scalar value => scalarText value
  | .array items => "[" ++ List.intercalate ", " (renderItems items) ++ "]"
  | .object members => "\x7b" ++ List.intercalate ", " (renderMembers members) ++ "\x7d"

def renderItems : List Json → List Text
  | [] => []
  | item :: items => item.render :: renderItems items

def renderMembers : List (Text × Json) → List Text
  | [] => []
  | (name, value) :: members =>
      (Text.asciiQuoted name ++ ": " ++ value.render) :: renderMembers members

end

namespace Reader

def skipBlanks (cs : Text) : Text :=
  cs.dropWhile fun c => c = ' ' || c = '\t' || c = '\n' || c = '\r'

def hexUnit? : Text → Option (Nat × Text)
  | a :: b :: c :: d :: cs => do
      let values ← [a, b, c, d].mapM Numeral.hexValue?
      return (values.foldl (fun value digit => 16 * value + digit) 0, cs)
  | _ => none

/-- The code point of an escape `\u`, which may be a pair of them. A surrogate without its partner
stands for itself. -/
def unicodeEscape? (cs : Text) : Option (CodePoint × Text) := do
  let (unit, rest) ← hexUnit? cs
  let alone := (CodePoint.ofNat unit, rest)
  match rest with
  | .char '\\' :: .char 'u' :: more =>
      match hexUnit? more with
      | some (second, tail) => return ((CodePoint.ofPair? unit second).map (·, tail)).getD alone
      | none => return alone
  | _ => return alone

def simpleEscape? : CodePoint → Option CodePoint
  | .char '"' => some '"'
  | .char '\\' => some '\\'
  | .char '/' => some '/'
  | .char 'b' => some '\x08'
  | .char 'f' => some '\x0c'
  | .char 'n' => some '\n'
  | .char 'r' => some '\r'
  | .char 't' => some '\t'
  | _ => none

def quoted? : Nat → Text → Option (Text × Text)
  | 0, _ => none
  | _, [] => none
  | _, .char '"' :: cs => some ([], cs)
  | fuel + 1, .char '\\' :: .char 'u' :: cs => do
      let (c, rest) ← unicodeEscape? cs
      let (text, tail) ← quoted? fuel rest
      return (c :: text, tail)
  | fuel + 1, .char '\\' :: e :: cs => do
      let c ← simpleEscape? e
      let (text, tail) ← quoted? fuel cs
      return (c :: text, tail)
  | fuel + 1, c :: cs => do
      if c.toNat < 0x20 || c = '\\' then none
      else
        let (text, tail) ← quoted? fuel cs
        return (c :: text, tail)

def isAsciiDigit (c : CodePoint) : Bool :=
  0x30 ≤ c.toNat && c.toNat ≤ 0x39

/-- A number: no zeros in front, digits behind a point, digits in an exponent. What would make it a
float is left alone if it is incomplete. -/
def number? (cs : Text) : Option (Scalar × Text) :=
  let (negative, afterSign) := match cs with
    | .char '-' :: rest => (true, rest)
    | _ => (false, cs)
  let whole : Text := match afterSign with
    | .char '0' :: _ => "0"
    | _ => afterSign.takeWhile isAsciiDigit
  if whole.isEmpty then none
  else
    let rest := afterSign.drop whole.length
    let fraction : Text := match rest with
      | .char '.' :: more =>
          match more.takeWhile isAsciiDigit with
          | [] => []
          | digits => .char '.' :: digits
      | _ => []
    let rest := rest.drop fraction.length
    let exponent : Text := match rest with
      | e :: more =>
          if e = 'e' ∨ e = 'E' then
            let sign : Text := match more with
              | .char '+' :: _ => "+"
              | .char '-' :: _ => "-"
              | _ => []
            match (more.drop sign.length).takeWhile isAsciiDigit with
            | [] => []
            | digits => e :: sign ++ digits
          else []
      | [] => []
    let rest := rest.drop exponent.length
    let sign : Text := if negative then "-" else []
    if fraction.isEmpty && exponent.isEmpty then
      (Numeral.takeInt? (sign ++ whole)).map fun (value, _) => (.int value, rest)
    else
      (Numeral.takeFloat? (sign ++ whole ++ fraction ++ exponent)).map fun (value, _) =>
        (.float value, rest)

def words : List (Text × Scalar) := [
  ("null", .null), ("true", .bool true), ("false", .bool false), ("NaN", .float .nan),
  ("Infinity", .float (.infinite false)), ("-Infinity", .float (.infinite true))]

def scalar? (cs : Text) : Option (Scalar × Text) :=
  match cs with
  | .char '"' :: rest =>
      (quoted? (rest.length + 1) rest).map fun (text, tail) => (.text text, tail)
  | _ =>
      match words.find? (·.1.isPrefixOf cs) with
      | some (word, value) => some (value, cs.drop word.length)
      | none => number? cs

mutual

def tree? : Nat → Text → Option (Json × Text)
  | 0, _ => none
  | fuel + 1, cs =>
      match cs with
      | .char '[' :: rest =>
          match skipBlanks rest with
          | .char ']' :: tail => some (.array [], tail)
          | rest => (items? fuel rest).map fun (items, tail) => (.array items, tail)
      | .char '\x7b' :: rest =>
          match skipBlanks rest with
          | .char '\x7d' :: tail => some (.object [], tail)
          | rest => (members? fuel rest).map fun (members, tail) => (.object members, tail)
      | _ => (scalar? cs).map fun (value, tail) => (.scalar value, tail)

def items? : Nat → Text → Option (List Json × Text)
  | 0, _ => none
  | fuel + 1, cs => do
      let (item, rest) ← tree? fuel (skipBlanks cs)
      match skipBlanks rest with
      | .char ']' :: tail => return ([item], tail)
      | .char ',' :: more =>
          let (items, tail) ← items? fuel more
          return (item :: items, tail)
      | _ => none

def members? : Nat → Text → Option (List (Text × Json) × Text)
  | 0, _ => none
  | fuel + 1, cs => do
      match skipBlanks cs with
      | .char '"' :: rest =>
          let (name, rest) ← quoted? (rest.length + 1) rest
          match skipBlanks rest with
          | .char ':' :: rest =>
              let (value, rest) ← tree? fuel (skipBlanks rest)
              match skipBlanks rest with
              | .char '\x7d' :: tail => return ([(name, value)], tail)
              | .char ',' :: more =>
                  let (members, tail) ← members? fuel more
                  return ((name, value) :: members, tail)
              | _ => none
          | _ => none
      | _ => none

end

end Reader

def parse? (text : Text) : Option Json :=
  match Reader.tree? (2 * text.length + 1) (Reader.skipBlanks text) with
  | some (tree, rest) => if (Reader.skipBlanks rest).isEmpty then some tree else none
  | none => none

def ofBytes? (bytes : Bytes) : Option Json := do
  parse? (← Text.ofBytes? bytes)

end Json

end SnapshotSql
