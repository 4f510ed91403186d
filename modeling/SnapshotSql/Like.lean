import SnapshotSql.Text.LetterCase

/-! # LIKE patterns

A percent sign stands for any run of characters and an underscore for one character, line breaks
excepted in both; every other character stands for itself without regard to case.
-/
namespace SnapshotSql.Like

/-- Whether some tail of the text, reached without passing a line break, is accepted. -/
def acceptsTail (accepts : Text → Bool) : Text → Bool
  | [] => accepts []
  | c :: cs => accepts (c :: cs) || (c ≠ '\n' && acceptsTail accepts cs)

def accepts : Text → Text → Bool
  | [], text => text.isEmpty
  | p :: pattern, text =>
      if p = '%' then acceptsTail (accepts pattern) text
      else match text with
        | [] => false
        | c :: cs => (if p = '_' then c ≠ '\n' else Text.alike p c) && accepts pattern cs

end SnapshotSql.Like
