import SnapshotSql.Database

/-! # Running a SELECT

Rows pass the condition, are grouped, projected, filtered by HAVING, freed of repetitions, ordered and
cut to the limit, in this order. A projected row keeps the row it was made from, the first one of its
group, because the order may look at columns that were not selected. The order of values that cannot
be compared is a tie, and ties keep the order of the rows.
-/
namespace SnapshotSql

namespace Aggregate

def present (rows : List Row) (column : Text) : List Scalar :=
  (rows.map (·.resolve column)).filter (!·.isNull)

/-- The sum of the values as numbers; what is no number adds nothing. -/
def total (values : List Scalar) : Number :=
  values.foldl (fun sum value =>
    if value.toNumber.isNan then sum else sum.combine (· + ·) .add value.toNumber) (.int 0)

def best (beats : Scalar → Scalar → Bool) : List Scalar → Scalar
  | [] => .null
  | value :: values =>
      values.foldl (fun best value => if beats value best then value else best) value

/-- An aggregate function over rows. Nulls count only for `COUNT(*)`. -/
def apply (function : AggregateFunction) (argument : Text) (rows : List Row) : Scalar :=
  let values := present rows argument
  match function with
  | .count => .int (if argument = "*" then rows.length else values.length)
  | .sum => (total values).toScalar
  | .avg =>
      if values.isEmpty then .int 0
      else .float ((total values).toFloat.div (.ofInt values.length))
  | .min => best Scalar.lessThan values
  | .max => best Scalar.greaterThan values

end Aggregate

namespace Select

def isAggregate : SelectItem → Bool
  | .aggregate .. => true
  | _ => false

def hasAggregates (query : Select) : Bool :=
  query.items.any isAggregate

def isGrouped (query : Select) : Bool :=
  !query.groupBy.isEmpty || query.hasAggregates

structure Projected where
  output : Row
  source : Row

/-! ## Names -/

def qualifiers (query : Select) : List Text :=
  match query.tableAlias with
  | some name => [query.table, name]
  | none => [query.table]

/-- A selected name is a column of the table, perhaps behind a qualifier. -/
def checkName (query : Select) (schema : TableSchema) (name : Text) : Except SqlError Unit :=
  match splitQualified name with
  | none => schema.requireColumn name
  | some (qualifier, bare) =>
      if query.qualifiers.contains qualifier then schema.requireColumn bare
      else .error (.invalidSchema (.unknownQualifier qualifier))

def checkItem (query : Select) (schema : TableSchema) : SelectItem → Except SqlError Unit
  | .star none => .ok ()
  | .star (some table) =>
      if query.qualifiers.contains table then .ok ()
      else .error (.invalidSchema (.unknownStarQualifier table))
  | .column name _ => checkName query schema name
  | .aggregate _ argument _ =>
      if argument = "*" then .ok () else checkName query schema argument

/-- The columns of the result, each listed once. A star has no columns in a grouped query. -/
def resultColumns (query : Select) (schema : TableSchema) : List Text :=
  (query.items.flatMap fun item =>
    match item with
    | .star _ => if query.isGrouped then [] else schema.columnNames
    | .column _ label => [label]
    | .aggregate _ _ label => [label]).eraseDups

/-! ## Projection -/

/-- The output row for a source row and, in a grouped query, the rows of its group. -/
def project (query : Select) (schema : TableSchema) (source : Row) (group : Option (List Row)) :
    Row :=
  query.items.foldl (fun output item =>
    match item with
    | .star _ =>
        if group.isSome then output
        else schema.columnNames.foldl (fun output name => output.insert name (source.value name))
          output
    | .column name label => output.insert label (source.resolve name)
    | .aggregate function argument label =>
        output.insert label (Aggregate.apply function argument (group.getD []))) .empty

def groups (columns : List Text) (rows : List Row) : List (List Row) :=
  let keyOf (row : Row) := Key.ofValues (columns.map row.resolve)
  (rows.map keyOf).eraseDups.map fun key => rows.filter (keyOf · = key)

def projectAll (query : Select) (schema : TableSchema) (rows : List Row) : List Projected :=
  if !query.groupBy.isEmpty then
    (groups query.groupBy rows).filterMap fun group =>
      group.head?.map fun first => ⟨query.project schema first (some group), first⟩
  else if query.hasAggregates then
    let first := rows.headD .empty
    [⟨query.project schema first (some rows), first⟩]
  else rows.map fun row => ⟨query.project schema row none, row⟩

/-! ## Repetitions, order and limit -/

def distinctBy (columns : List Text) : List Text → List Projected → List Projected
  | _, [] => []
  | seen, row :: rows =>
      let key := Key.ofValues (row.output.values columns)
      if seen.contains key then distinctBy columns seen rows
      else row :: distinctBy columns (key :: seen) rows

/-- The value that orders a row: a column of the output, with or without its qualifier, else a column
of the source. -/
def sortValue (row : Projected) (column : Text) : Scalar :=
  match row.output.get? column with
  | some value => value
  | none =>
      match row.output.get? (bareName column) with
      | some value => value
      | none => row.source.resolve column

def compareRows (a b : Projected) : List OrderItem → Ordering
  | [] => .eq
  | item :: items =>
      let left := sortValue a item.column
      let right := sortValue b item.column
      if left.greaterThan right then if item.descending then .lt else .gt
      else if left.lessThan right then if item.descending then .gt else .lt
      else compareRows a b items

def sortRows (items : List OrderItem) (rows : List Projected) : List Projected :=
  Sorting.sort (fun a b => compareRows a b items = .lt) rows

def limitRows (limit : Option Nat) (offset : Nat) (rows : List Projected) : List Projected :=
  match limit with
  | some count => (rows.drop offset).take count
  | none => rows.drop offset

def resultOf (query : Select) (schema : TableSchema) (rows : List Row) : QueryResult :=
  let columns := query.resultColumns schema
  let passing := rows.filter fun row => query.condition.all (·.holds row)
  let projected := (query.projectAll schema passing).filter fun row =>
    query.having.all (·.holds row.output)
  let unrepeated := if query.distinct then distinctBy columns [] projected else projected
  let sorted := sortRows query.orderBy unrepeated
  ⟨columns, (limitRows query.limit query.offset sorted).map (·.output)⟩

end Select

def Database.select (database : Database) (query : Select) : Except SqlError QueryResult := do
  let schema ← database.requireTable query.table
  query.items.forM (query.checkItem schema)
  return query.resultOf schema (database.tableRows query.table)

end SnapshotSql
