import SnapshotSql.Expression

/-! # Statements

Statements as they are written, before names and types are checked against a database.
-/
namespace SnapshotSql

inductive ReferentialAction where
  | restrict
  | cascade
  | setNull
  deriving DecidableEq

/-- A reference from columns of one table to as many columns of another. -/
structure ForeignKey where
  columns : List Text
  refTable : Text
  refColumns : List Text
  onDelete : ReferentialAction
  onUpdate : ReferentialAction
  name : Option Text
  deriving DecidableEq

/-- A column as it is written in CREATE TABLE; the type name is in capitals. -/
structure ColumnSpec where
  name : Text
  typeName : Text
  params : List Number
  primary : Bool
  unique : Bool
  notNull : Bool
  autoIncrement : Bool
  deriving DecidableEq

structure CreateTable where
  table : Text
  columns : List ColumnSpec
  primaryKey : Option (List Text)
  uniqueKeys : List (List Text)
  foreignKeys : List ForeignKey
  ifNotExists : Bool
  deriving DecidableEq

inductive AggregateFunction where
  | count
  | sum
  | avg
  | min
  | max
  deriving DecidableEq

def AggregateFunction.name : AggregateFunction → Text
  | .count => "COUNT"
  | .sum => "SUM"
  | .avg => "AVG"
  | .min => "MIN"
  | .max => "MAX"

def AggregateFunction.label : AggregateFunction → Text
  | .count => "count"
  | .sum => "sum"
  | .avg => "avg"
  | .min => "min"
  | .max => "max"

def aggregateFunctions : List AggregateFunction :=
  [.count, .sum, .avg, .min, .max]

inductive SelectItem where
  | star (table : Option Text)
  | column (name label : Text)
  | aggregate (function : AggregateFunction) (argument label : Text)
  deriving DecidableEq

structure OrderItem where
  column : Text
  descending : Bool
  deriving DecidableEq

/-- A SELECT on one table; an empty list of grouping columns means that there is no GROUP BY. -/
structure Select where
  items : List SelectItem
  table : Text
  tableAlias : Option Text
  distinct : Bool
  condition : Option Condition
  groupBy : List Text
  having : Option Condition
  orderBy : List OrderItem
  limit : Option Nat
  offset : Nat
  deriving DecidableEq

structure CreateView where
  view : Text
  select : Select
  deriving DecidableEq

structure DropTable where
  table : Text
  ifExists : Bool
  deriving DecidableEq

structure Insert where
  table : Text
  columns : Option (List Text)
  rows : List (List Scalar)
  deriving DecidableEq

structure Assignment where
  column : Text
  expression : SetExpression
  deriving DecidableEq

structure Update where
  table : Text
  assignments : List Assignment
  condition : Option Condition
  deriving DecidableEq

structure Delete where
  table : Text
  condition : Option Condition
  deriving DecidableEq

inductive Statement where
  | createTable (definition : CreateTable)
  | createView (definition : CreateView)
  | dropTable (drop : DropTable)
  | insert (insertion : Insert)
  | update (change : Update)
  | delete (deletion : Delete)
  | select (query : Select)
  deriving DecidableEq

end SnapshotSql
