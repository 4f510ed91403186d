import SnapshotSql.Session

/-! # The interpreter

The engine is carried out by an interpreter with bounds of its own. An integer of too many digits is
neither read from a text nor written to one, only so many calls can be open at a time, and a text has
only so many characters. A run that comes to a bound is broken off: it publishes nothing and has no
result. Numerals are read before anything else is done, so that a numeral of too many digits can be
told from the text. Where else a run is broken off depends on what the interpreter has in use besides,
and on the values that it comes to compare. What is known of it are two sides: calls that are too many
in any case, and runs that stay far from every bound.
-/
namespace SnapshotSql

/-! ## Numerals -/

namespace Lexer

def integerLength (chars : Text) : Nat :=
  match takeMantissa false chars with
  | some (mantissa, false) =>
      let rest := chars.drop mantissa.length
      if (takeExponent rest).isEmpty && !beginsWord rest then mantissa.length else 0
  | _ => 0

/-- The most digits of an integer that the lexer comes to, after `skip` characters that belong to the
token before. -/
def longestInteger (skip : Nat) : Text → Nat
  | [] => 0
  | c :: cs =>
      match skip with
      | skip + 1 => longestInteger skip cs
      | 0 =>
          if Text.isBlank c then longestInteger 0 cs
          else
            let later := match takeLexeme (c :: cs) with
              | .ok (_, count) => longestInteger (count - 1) cs
              | .error _ => 0
            max (integerLength (c :: cs)) later

end Lexer

/-- The most digits of an integer in texts that are read in order, up to one that is no statement. -/
def longestRead : List Text → Nat
  | [] => 0
  | text :: texts =>
      let later := match parse text with
        | .ok _ => longestRead texts
        | .error _ => 0
      max (Lexer.longestInteger 0 (Text.trim text)) later

def numeralLength (sql : Text) : Nat :=
  let text := Text.trim sql
  longestRead (if SourceText.kind? text = some .createTable then SourceText.statements text else [text])

/-! ## Needs of a statement -/

inductive Bound where
  | digits
  | calls
  | characters
  deriving DecidableEq

namespace Condition

def nesting : Condition → Nat
  | .and left right => max left.nesting right.nesting
  | .or left right => max left.nesting right.nesting
  | .group inner => inner.nesting + 1
  | _ => 0

/-- The parts of a condition that are evaluated inside each other in any case, whatever the row is. -/
def spine : Condition → Nat
  | .and left _ => left.spine + 1
  | .or left _ => left.spine + 1
  | .group inner => inner.spine + 1
  | _ => 1

def height : Condition → Nat
  | .and left right => max left.height right.height + 1
  | .or left right => max left.height right.height + 1
  | .group inner => inner.height + 1
  | _ => 1

end Condition

def Select.conditions (query : Select) : List Condition :=
  query.condition.toList ++ query.having.toList

namespace Statement

def conditions : Statement → List Condition
  | .createView definition => definition.select.conditions
  | .select query => query.conditions
  | .update change => change.condition.toList
  | .delete deletion => deletion.condition.toList
  | _ => []

def filter? : Statement → Option (Text × Condition)
  | .createView definition => definition.select.condition.map (definition.select.table, ·)
  | .select query => query.condition.map (query.table, ·)
  | .update change => change.condition.map (change.table, ·)
  | .delete deletion => deletion.condition.map (deletion.table, ·)
  | _ => none

end Statement

namespace Scalar

def castDigits (type : ColumnType) (value : Scalar) : Nat :=
  match type, value with
  | .int, .text chars =>
      (Numeral.takeDigits (Numeral.takeSign (chars.dropWhile Text.isBlank)).2).1.length
  | .text, .int value => Binary64.digitCount value.natAbs
  | .char _, .int value => Binary64.digitCount value.natAbs
  | .varchar _, .int value => Binary64.digitCount value.natAbs
  | _, _ => 0

def castCharacters (type : ColumnType) (value : Scalar) : Nat :=
  match type with
  | .char length => if value.isNull then 0 else length
  | _ => 0

end Scalar

/-- A rejection that is found at the rows, when values have been cast and conditions evaluated. -/
def SqlError.isFoundAtRows : SqlError → Bool
  | .invalidSchema (.valueCount _ _ _) => true
  | .violated _ => true
  | .blocked _ => true
  | _ => false

/-- Calls that are open at a time when a statement is read: three for each pair of parentheses. -/
def Statement.readNeed (statement : Statement) : Bound → Nat
  | .calls => 3 * (statement.conditions.map (·.nesting)).foldr max 0
  | _ => 0

namespace Database

/-- The rows that a statement casts. An INSERT casts the tuples before the first one that has too many
values or too few. -/
def rowsToCast (database : Database) : Statement → List (TableSchema × Row)
  | .insert insertion =>
      match database.schemas.get? insertion.table with
      | some schema =>
          let columns (values : List Scalar) := insertColumns schema insertion.columns values.length
          let fitting := insertion.rows.takeWhile fun values => (columns values).length = values.length
          fitting.map fun values => (schema, .ofList ((columns values).zip values))
      | none => []
  | .update change =>
      match database.schemas.get? change.table with
      | some schema =>
          let named := (database.tableRows schema.name).filter fun row => change.condition.all (·.holds row)
          named.map fun row => (schema, assigned change.assignments row)
      | none => []
  | _ => []

def castNeeds (database : Database) (statement : Statement) (need : ColumnType → Scalar → Nat) : List Nat :=
  (database.rowsToCast statement).flatMap fun (schema, row) =>
    schema.columns.map fun column => need column.type (row.value column.name)

/-- Calls that are open at a time when a condition is evaluated on the rows: one for each part of it that
is inside another in any case, as soon as there is a row. -/
def filterCalls (database : Database) (statement : Statement) : Nat :=
  match statement.filter? with
  | some (table, condition) => if (database.tableRows table).isEmpty then 0 else condition.spine
  | none => 0

def rowsNeed (database : Database) (statement : Statement) : Bound → Nat
  | .digits => (database.castNeeds statement Scalar.castDigits).foldr max 0
  | .calls => database.filterCalls statement
  | .characters => (database.castNeeds statement Scalar.castCharacters).foldr max 0

def need (database : Database) (statement : Statement) (bound : Bound) : Nat :=
  max (statement.readNeed bound) (database.rowsNeed statement bound)

def reachesRows (database : Database) (limit : Int) (statement : Statement) : Bool :=
  match database.run limit statement with
  | .ok _ => true
  | .error (.rejected error) => error.isFoundAtRows
  | .error _ => false

/-- The least that a text needs if it is read as one statement. -/
def textNeed (database : Database) (limit : Int) (sql : Text) (bound : Bound) : Nat :=
  match parse sql with
  | .ok statement =>
      if database.reachesRows limit statement then database.need statement bound
      else statement.readNeed bound
  | .error _ => 0

end Database

/-! ## Bounds -/

/-- The most digits of an integer that is read or written, the most calls that are open at a time and
those among them that are open around a run, and the most characters of a text and those that there is
room for in any case. -/
structure Bounds where
  digits : Nat
  calls : Nat
  callsAround : Nat
  characters : Nat
  room : Nat

/-- No more than so many letters, digits and underscores stand side by side. -/
def Text.RunsWithin (size : Nat) (text : Text) : Prop :=
  ∀ run, run <:+: text → run.all isWordChar = true → run.length ≤ size

def Scalar.Within (size : Nat) : Scalar → Prop
  | .int value => Binary64.digitCount value.natAbs ≤ size
  | .text chars => Text.RunsWithin size chars
  | _ => True

namespace Bounds

def standard : Bounds where
  digits := 4300
  calls := 1000
  callsAround := 200
  characters := 0x7FFFFFFFFFFFFFFF
  room := 0x1000000

def most (bounds : Bounds) : Bound → Nat
  | .digits => bounds.digits
  | .calls => bounds.calls
  | .characters => bounds.characters

/-- A run of a text stays far from every bound. The integers that it comes to have at most six times as
many digits as the values that it begins with, or as a float has before its point: a hexadecimal
numeral has up to twice as many decimal digits, a product or two texts side by side as many as both
have, and a sum over the rows at most as many more as the number of rows has. -/
structure Allow (bounds : Bounds) (database : Database) (limit : Int) (sql : Text) : Prop where
  values : ∃ size, 309 ≤ size ∧ 6 * size ≤ bounds.digits ∧ Text.RunsWithin size sql ∧
    Binary64.digitCount limit.natAbs ≤ size ∧
      ∀ table, Binary64.digitCount (database.tableRows table).length ≤ size ∧
        ∀ row ∈ database.tableRows table, ∀ name, (row.value name).Within size
  parentheses : 3 * sql.count (.char '(') + bounds.callsAround ≤ bounds.calls
  conditions : ∀ statement, parse sql = .ok statement → ∀ condition ∈ statement.conditions,
    3 * condition.height + bounds.callsAround ≤ bounds.calls
  needs : ∀ statement, parse sql = .ok statement → ∀ bound,
    database.need statement bound ≤ bounds.most bound
  padding : ∀ statement, parse sql = .ok statement →
    (database.castNeeds statement Scalar.castCharacters).foldr (· + ·) 0 ≤ bounds.room

def overdrawn? (bounds : Bounds) (database : Database) (limit : Int) (sql : Text) : Option Bound :=
  [.digits, .calls, .characters].find? fun bound => bounds.most bound < database.textNeed limit sql bound

theorem overdrawn?_eq_none {bounds : Bounds} {database : Database} {limit : Int} {sql : Text} :
    bounds.overdrawn? database limit sql = none ↔
      ∀ bound, database.textNeed limit sql bound ≤ bounds.most bound := by
  simp only [overdrawn?, List.find?_eq_none, decide_eq_true_eq, Nat.not_lt]
  constructor
  · intro h bound
    exact h bound (by cases bound <;> simp)
  · exact fun h bound _ => h bound

theorem Allow.textNeed_le {bounds : Bounds} {database : Database} {limit : Int} {sql : Text}
    (h : bounds.Allow database limit sql) (bound : Bound) :
    database.textNeed limit sql bound ≤ bounds.most bound := by
  unfold Database.textNeed
  split
  · next statement hparse =>
    have hneed := h.needs statement hparse bound
    split
    · exact hneed
    · exact Nat.le_trans (Nat.le_max_left _ _) hneed
  · exact Nat.zero_le _

end Bounds

/-- Bounds, and the one at which a run is broken off, if it is, after its numerals have been read. -/
structure Interpreter extends Bounds where
  breaksOff? : Database → Int → Text → Option Bound
  bounded : ∀ database limit sql bound, toBounds.most bound < database.textNeed limit sql bound →
    breaksOff? database limit sql ≠ none
  spares : ∀ database limit sql, toBounds.Allow database limit sql → breaksOff? database limit sql = none

namespace Interpreter

def exceeded? (interpreter : Interpreter) (database : Database) (limit : Int) (sql : Text) :
    Option Bound :=
  if interpreter.digits < numeralLength sql then some .digits
  else interpreter.breaksOff? database limit sql

/-- An interpreter that breaks off only what is known to need more than it has. -/
def standard : Interpreter where
  toBounds := .standard
  breaksOff? := Bounds.standard.overdrawn?
  bounded _ _ _ bound h hnone := Nat.not_lt.mpr (Bounds.overdrawn?_eq_none.mp hnone bound) h
  spares _ _ _ h := Bounds.overdrawn?_eq_none.mpr h.textNeed_le

def writes (interpreter : Interpreter) : Scalar → Bool
  | .int value => Binary64.digitCount value.natAbs ≤ interpreter.digits
  | _ => true

def writesRows (interpreter : Interpreter) (rows : List Row) : Bool :=
  rows.all fun row => row.entries.all fun (_, value) => interpreter.writes value

end Interpreter

/-! ## Sessions on an interpreter -/

inductive Interruption where
  | failed (failure : Failure)
  | exceeded (bound : Bound)

namespace Session

def executeTextOn (session : Session) (interpreter : Interpreter) (limit : Int) (sql : Text) :
    Session × Except Interruption QueryResult :=
  match interpreter.exceeded? session.database limit sql with
  | some bound => (⟨session.name, session.database, session.statements + 1⟩, .error (.exceeded bound))
  | none =>
      let (session, result) := session.executeText limit sql
      (session, result.mapError .failed)

def executeOn (session : Session) (interpreter : Interpreter) (limit : Int) (sql : Text) :
    Session × Except Interruption QueryResult :=
  session.executeTextOn interpreter limit (SourceText.withoutComments sql)

def executeAllOn (session : Session) (interpreter : Interpreter) (limit : Int) (texts : List Text) :
    Session × Except Interruption (List QueryResult) :=
  session.executeEach (·.executeOn interpreter limit ·) texts

end Session

end SnapshotSql
