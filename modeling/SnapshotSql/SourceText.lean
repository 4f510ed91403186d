import SnapshotSql.Text.Blank
import SnapshotSql.Text.LetterCase
import SnapshotSql.Text.Digit

/-! # SQL text before it is read

Comments are dropped, a text is cut into statements at its semicolons, and the kind of a statement is
told from its first two words. None of this looks inside quotes. A block comment leaves one space
behind and a line comment leaves its line break, so that words beside a comment stay apart.
-/
namespace SnapshotSql.SourceText

inductive Region where
  | code
  | quoted (quote : CodePoint)
  | lineComment
  | blockComment
  deriving DecidableEq

def isQuote (c : CodePoint) : Bool :=
  c = '\'' || c = '"'

/-- What remains of a text without its comments, from a place inside a region. -/
def withoutCommentsIn : Region → Text → Text
  | _, [] => []
  | .quoted quote, c :: cs =>
      c :: withoutCommentsIn (if c = quote then .code else .quoted quote) cs
  | .lineComment, c :: cs =>
      if c = '\n' then c :: withoutCommentsIn .code cs else withoutCommentsIn .lineComment cs
  | .blockComment, .char '*' :: .char '/' :: cs => withoutCommentsIn .code cs
  | .blockComment, _ :: cs => withoutCommentsIn .blockComment cs
  | .code, .char '/' :: .char '*' :: cs => .char ' ' :: withoutCommentsIn .blockComment cs
  | .code, .char '-' :: .char '-' :: cs => withoutCommentsIn .lineComment cs
  | .code, .char '/' :: .char '/' :: cs => withoutCommentsIn .lineComment cs
  | .code, .char '#' :: cs => withoutCommentsIn .lineComment cs
  | .code, .char '－' :: .char '－' :: cs => withoutCommentsIn .lineComment cs
  | .code, .char '—' :: .char '—' :: cs => withoutCommentsIn .lineComment cs
  | .code, c :: cs => c :: withoutCommentsIn (if isQuote c then .quoted c else .code) cs

/-- Drops block comments and the comments that `--`, `//`, `#` and their full-width forms begin. -/
def withoutComments (text : Text) : Text :=
  withoutCommentsIn .code text

/-- Cuts a text at the semicolons outside quotes. There is always a last piece. -/
def pieces (quote : Option CodePoint) : Text → List Text
  | [] => [[]]
  | c :: cs =>
      match quote with
      | none =>
          if c = ';' then [] :: pieces none cs
          else extend c (pieces (if isQuote c then some c else none) cs)
      | some q => extend c (pieces (if c = q then none else some q) cs)
where
  /-- Puts a character before the first piece. -/
  extend (c : CodePoint) : List Text → List Text
    | [] => [[c]]
    | piece :: more => (c :: piece) :: more

def statements (text : Text) : List Text :=
  ((pieces none text).map Text.trim).filter (!·.isEmpty)

/-- The kinds of statement that the first words of a text can announce. -/
inductive Kind where
  | createTable
  | createView
  | dropTable
  | insert
  | update
  | delete
  | select
  deriving DecidableEq

def takeWord (text : Text) : String × Text :=
  ((Text.upper (text.takeWhile Text.isWordChar)).toString, text.dropWhile Text.isWordChar)

def kind? (text : Text) : Option Kind :=
  let (first, rest) := takeWord (text.dropWhile Text.isBlank)
  let second := match rest with
    | c :: _ => if Text.isBlank c then (takeWord (rest.dropWhile Text.isBlank)).1 else ""
    | [] => ""
  match first, second with
  | "CREATE", "TABLE" => some .createTable
  | "CREATE", "VIEW" => some .createView
  | "DROP", "TABLE" => some .dropTable
  | "INSERT", _ => some .insert
  | "UPDATE", _ => some .update
  | "DELETE", _ => some .delete
  | "SELECT", _ => some .select
  | _, _ => none

/-- Writes one underscore for every run of characters that cannot stand in a name. -/
def labelOf (name : Text) : Text :=
  collapse false name
where
  /-- The flag tells that the character before was dropped too. -/
  collapse (dropped : Bool) : Text → Text
    | [] => []
    | c :: cs =>
        if Text.isWordChar c || c = '.' then c :: collapse false cs
        else if dropped then collapse true cs
        else .char '_' :: collapse true cs

end SnapshotSql.SourceText
