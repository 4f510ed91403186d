import SnapshotSql.Text.Quoted
import SnapshotSql.Number.Numeral

/-! # What can go wrong

Every reason for which the engine rejects a statement, with the words it is reported in. The reasons
fall into six groups: text that is not a statement, statements that are understood but not offered,
missing tables, schemas that make no sense, rows that break a constraint, and writes that a reference
blocks. Apart from these, two operations have no answer at all: reading a digit that has no decimal
value, and rounding to a DECIMAL beyond the range of floats.
-/
namespace SnapshotSql

/-- What the parser misses or refuses at a place in the text. -/
inductive Complaint where
  | expected (what : Text)
  | nullAfterIs
  | patternAfterLike
  | betweenBounds
  | functionCall (name : Text)
  | restOfExpression
  | restOfStatement
  | columnSyntax
  | columnSyntaxIn (column : Text)
  | columnType (column : Text)
  | typeParameter
  | selectWithoutFrom
  | selectItem
  | aggregateArgument (function : Text)
  | selectFunction (name : Text)
  | wholeNumber (clause : Text)
  deriving DecidableEq

def Complaint.message : Complaint → Text
  | .expected what => "Expected " ++ what
  | .nullAfterIs => "IS only supports NULL"
  | .patternAfterLike => "LIKE needs a quoted pattern"
  | .betweenBounds => "BETWEEN requires: expr BETWEEN a AND b"
  | .functionCall name =>
      "Function calls like " ++ name ++ "(...) are only allowed in the SELECT list; " ++
        "refer to them by alias"
  | .restOfExpression => "Unexpected token in expression"
  | .restOfStatement => "Unexpected text after statement"
  | .columnSyntax => "Unsupported column syntax"
  | .columnSyntaxIn column => "Unsupported column syntax in " ++ column
  | .columnType column => "Column " ++ column ++ " needs a type, e.g. " ++ column ++ " INT;"
  | .typeParameter => "Type parameters must be numbers"
  | .selectWithoutFrom => "Malformed SELECT: expected FROM"
  | .selectItem => "Unsupported select item"
  | .aggregateArgument function => function ++ " expects * or a column"
  | .selectFunction name => "Unsupported function " ++ name
  | .wholeNumber clause => clause ++ " expects a whole number"

def Complaint.near (complaint : Complaint) (fragment : Text) : Text :=
  complaint.message ++ " near '" ++ fragment ++ "'"

/-- Text that is not a statement. Positions count characters from the beginning of the text. -/
inductive SyntaxError where
  | unexpectedCharacter (char : CodePoint) (position : Nat) (fragment : Text)
  | unterminatedText (position : Nat) (fragment : Text)
  | malformedNumber (position : Nat) (fragment : Text)
  | near (complaint : Complaint) (fragment : Text)
  | emptyStatement
  | severalStatements
  | noColumns (table : Text)
  | severalPrimaryKeys (table : Text)
  | viewShape
  | insertShape
  | updateShape
  | assignment (fragment : Text) (reason : Option (Complaint × Text))
  | unknownType (name : Text)
  | lengthRequired (type : Text)
  | precisionRequired
  | needlessParameters (type column : Text)
  deriving DecidableEq

def SyntaxError.message : SyntaxError → Text
  | .unexpectedCharacter char position fragment =>
      "Unexpected character '" ++ [char] ++ "' at position " ++
        Numeral.wholeText position ++ ": " ++ fragment
  | .unterminatedText position fragment =>
      "Unterminated string literal at position " ++ Numeral.wholeText position ++ ": " ++ fragment
  | .malformedNumber position fragment =>
      "Invalid number format at position " ++ Numeral.wholeText position ++ ": " ++ fragment
  | .near complaint fragment => complaint.near fragment
  | .emptyStatement => "Empty statement"
  | .severalStatements =>
      "Only one statement can run at a time (CREATE TABLE batches excepted)"
  | .noColumns table => "Table " ++ table ++ " needs at least one column"
  | .severalPrimaryKeys table => "Table " ++ table ++ " declares more than one PRIMARY KEY"
  | .viewShape => "CREATE VIEW expects: CREATE VIEW name AS SELECT ..."
  | .insertShape =>
      "Only supports: INSERT INTO table [(col, ...)] VALUES (val, ...)[, (val, ...), ...]"
  | .updateShape => "Malformed UPDATE. Expected: UPDATE table SET col=expr[, ...] [WHERE expr]"
  | .assignment fragment none => "Bad SET item: " ++ fragment
  | .assignment fragment (some (complaint, place)) =>
      "Bad SET item: " ++ fragment ++ " (" ++ complaint.near place ++ ")"
  | .unknownType name => "Unsupported type: " ++ name
  | .lengthRequired type => type ++ " requires length, e.g. " ++ type ++ "(20)"
  | .precisionRequired => "DECIMAL requires (precision, scale), e.g. DECIMAL(10,2)"
  | .needlessParameters type column =>
      type ++ " does not take parameters (column " ++ column ++ ")"

def supportedStatements : Text :=
  "CREATE TABLE, CREATE VIEW, DROP TABLE, INSERT, UPDATE, DELETE, SELECT"

/-- SQL that is understood but not offered. -/
inductive Unsupported where
  | subquery
  | otherCreate
  | otherDrop
  | transaction
  | alteration
  | statement (word : Text)
  | insertFromSelect
  | join
  | severalTables
  | distinctAggregate (function : Text)
  deriving DecidableEq

def Unsupported.message : Unsupported → Text
  | .subquery => "Subqueries are not supported"
  | .otherCreate =>
      "Only CREATE TABLE and CREATE VIEW are supported. Supported statements: " ++
        supportedStatements
  | .otherDrop => "Only DROP TABLE is supported. Supported statements: " ++ supportedStatements
  | .transaction =>
      "Transactions are not supported. Supported statements: " ++ supportedStatements
  | .alteration =>
      "ALTER TABLE is not supported; drop and re-create the table. Supported statements: " ++
        supportedStatements
  | .statement word =>
      "Unsupported statement '" ++ word ++ "'. Supported statements: " ++ supportedStatements
  | .insertFromSelect => "INSERT ... SELECT is not supported"
  | .join => "JOIN is not supported yet (coming soon)"
  | .severalTables => "Only single-table SELECT is supported (no JOIN)"
  | .distinctAggregate function => function ++ "(DISTINCT ...) is not supported"

def displayNames (names : List Text) : Text :=
  "[" ++ List.intercalate ", " (names.map Text.displayQuoted) ++ "]"

inductive SchemaError where
  | autoIncrementType (column : Text)
  | unknownColumnIn (column part table : Text)
  | repeatedColumnIn (part table : Text)
  | repeatedColumns (columns : List Text) (table : Text)
  | referenceCount (table : Text) (columns : List Text)
  | unknownReferencedTable (table : Text)
  | unknownReferencedColumn (column table : Text)
  | impossibleSetNull (table : Text) (columns : List Text)
  | unknownColumn (column table : Text)
  | tableExists (table : Text)
  | tableInTheWay (view : Text)
  | repeatedInsertColumn (table : Text)
  | valueCount (row expected got : Nat)
  | unknownQualifier (qualifier : Text)
  | unknownStarQualifier (qualifier : Text)
  | unpairedTables (withoutRows withoutSchema : List Text)
  deriving DecidableEq

def SchemaError.message : SchemaError → Text
  | .autoIncrementType column => "AUTO_INCREMENT column " ++ column ++ " must be INT"
  | .unknownColumnIn column part table =>
      "Unknown column '" ++ column ++ "' in " ++ part ++ " of table '" ++ table ++ "'"
  | .repeatedColumnIn part table =>
      "Duplicate column in " ++ part ++ " of table '" ++ table ++ "'"
  | .repeatedColumns columns table =>
      "Duplicate column name(s) " ++ displayNames columns ++ " in table '" ++ table ++ "'"
  | .referenceCount table columns =>
      "Foreign key on " ++ table ++ "(" ++ List.intercalate ", " columns ++
        ") must list as many referenced columns as local columns"
  | .unknownReferencedTable table => "Foreign key references unknown table '" ++ table ++ "'"
  | .unknownReferencedColumn column table =>
      "Foreign key references unknown column '" ++ column ++ "' in table '" ++ table ++ "'"
  | .impossibleSetNull table columns =>
      "SET NULL is impossible on " ++ table ++ "(" ++ List.intercalate ", " columns ++
        "): column is part of the primary key or NOT NULL"
  | .unknownColumn column table => "Unknown column '" ++ column ++ "' in table '" ++ table ++ "'"
  | .tableExists table => "Table '" ++ table ++ "' already exists"
  | .tableInTheWay view =>
      "Cannot create view '" ++ view ++ "': a table with that name exists"
  | .repeatedInsertColumn table => "Column listed twice in INSERT INTO " ++ table
  | .valueCount row expected got =>
      "Column count doesn't match value count in row " ++ Numeral.wholeText row ++
        ": expected " ++ Numeral.wholeText expected ++ ", got " ++ Numeral.wholeText got
  | .unknownQualifier qualifier => "Unknown table or alias '" ++ qualifier ++ "' in SELECT"
  | .unknownStarQualifier qualifier =>
      "Unknown table or alias '" ++ qualifier ++ "' in " ++ qualifier ++ ".*"
  | .unpairedTables withoutRows withoutSchema =>
      "Database is inconsistent: tables without rows " ++ displayNames withoutRows ++
        ", rows without schema " ++ displayNames withoutSchema

/-- Rows that break a constraint. Keys and values are given as they are shown. -/
inductive ConstraintError where
  | nullColumn (column table : Text)
  | nullPrimaryKey (columns : List Text) (table : Text)
  | repeatedPrimaryKey (key table : Text)
  | repeatedUnique (key : Text) (columns : List Text) (table : Text)
  | missingParent (foreignKey parent key : Text)
  deriving DecidableEq

def ConstraintError.message : ConstraintError → Text
  | .nullColumn column table =>
      "Column '" ++ column ++ "' of table '" ++ table ++ "' cannot be NULL"
  | .nullPrimaryKey columns table =>
      "Primary key (" ++ List.intercalate ", " columns ++ ") of table '" ++ table ++
        "' cannot contain NULL"
  | .repeatedPrimaryKey key table =>
      "Duplicate primary key (" ++ key ++ ") in table '" ++ table ++ "'"
  | .repeatedUnique key columns table =>
      "Duplicate value (" ++ key ++ ") for UNIQUE (" ++ List.intercalate ", " columns ++
        ") in table '" ++ table ++ "'"
  | .missingParent foreignKey parent key =>
      "Foreign key violation on " ++ foreignKey ++ ": no row in '" ++ parent ++ "' has (" ++
        key ++ ")"

inductive ReferentialError where
  | depthLimit (write : Text) (limit : Int)
  | restrictedDelete (parent : Text) (rows : Nat) (child foreignKey : Text)
  | restrictedUpdate (parent : Text) (rows : Nat) (child foreignKey : Text)
  | referencedTable (table : Text) (foreignKeys : List Text)
  deriving DecidableEq

def ReferentialError.message : ReferentialError → Text
  | .depthLimit write limit =>
      write ++ " cascade exceeded the depth limit of " ++ Numeral.wholeText limit ++
        "; check for cyclic foreign keys"
  | .restrictedDelete parent rows child foreignKey =>
      "Cannot delete from '" ++ parent ++ "': " ++ Numeral.wholeText rows ++ " row(s) in '" ++
        child ++ "' still reference it via " ++ foreignKey ++ " (ON DELETE RESTRICT)"
  | .restrictedUpdate parent rows child foreignKey =>
      "Cannot update '" ++ parent ++ "': " ++ Numeral.wholeText rows ++ " row(s) in '" ++ child ++
        "' still reference the old key via " ++ foreignKey ++ " (ON UPDATE RESTRICT)"
  | .referencedTable table foreignKeys =>
      "Cannot drop table '" ++ table ++ "': referenced by " ++ List.intercalate "; " foreignKeys

/-- Why the engine rejects a statement. -/
inductive SqlError where
  | malformed (error : SyntaxError)
  | unsupported (feature : Unsupported)
  | tableNotFound (table : Text)
  | invalidSchema (error : SchemaError)
  | violated (error : ConstraintError)
  | blocked (error : ReferentialError)
  deriving DecidableEq

def SqlError.message : SqlError → Text
  | .malformed error => error.message
  | .unsupported feature => feature.message
  | .tableNotFound table => "Table '" ++ table ++ "' does not exist"
  | .invalidSchema error => error.message
  | .violated error => error.message
  | .blocked error => error.message

/-- Why an operation has no answer: a rejection, or a number that cannot be formed. -/
inductive Failure where
  | rejected (error : SqlError)
  | unreadableDigits
  | decimalOverflow
  deriving DecidableEq

def orFail {α : Type} : Except SqlError α → Except Failure α
  | .ok value => .ok value
  | .error error => .error (.rejected error)

end SnapshotSql
