import SnapshotSql.Proofs.PrintedQueries
import SnapshotSql.Proofs.UncommentedText

/-! # Inserted values that are written as literals

An INSERT that lists its columns and writes each value as a literal is read as just this INSERT, after comments
have been dropped and blanks have been cut off. Texts may stand in quotes of either kind; the quote is doubled
inside, and nothing else is done to them. Three readers have to agree on where such a text ends: the one that
drops comments, the lexer, and the grammar behind it.
-/
namespace SnapshotSql

/-! ## Literals -/

inductive Quote where
  | single
  | double
  deriving DecidableEq

def Quote.mark : Quote → CodePoint
  | .single => '\''
  | .double => '"'

/-- A value and the kind of quotes that it stands in if it is a text. -/
structure Literal where
  value : Scalar
  quote : Quote
  deriving DecidableEq

def Literal.print : Literal → Text
  | ⟨.null, _⟩ => "NULL"
  | ⟨.bool value, _⟩ => if value then "TRUE" else "FALSE"
  | ⟨.int value, _⟩ => Numeral.wholeText value
  | ⟨.float value, _⟩ => value.text
  | ⟨.text value, quote⟩ => quote.mark :: (Text.doubled quote.mark value ++ [quote.mark])

def printedTuple (row : List Literal) : Text :=
  "(" ++ List.intercalate ", " (row.map Literal.print) ++ ")"

def printedInsert (table : Text) (columns : List Text) (rows : List (List Literal)) : Text :=
  "INSERT INTO " ++ table ++ " (" ++ List.intercalate ", " columns ++ ") VALUES " ++
    List.intercalate ", " (rows.map printedTuple)

theorem Quote.mark_eq (quote : Quote) : quote.mark = .char '\'' ∨ quote.mark = .char '"' := by
  cases quote
  · exact .inl rfl
  · exact .inr rfl

theorem Numeral.wholeText_of_neg {value : Int} (h : value < 0) :
    wholeText value = .char '-' :: wholeText (-value) := by
  rw [wholeText, wholeText, if_pos h, if_neg (by omega), Int.natAbs_neg]
  rfl

/-- A literal is read as the lexemes of its value. -/
theorem Literal.lays {literal : Literal} (h : literal.value.ReadsBack) :
    Lexer.Lays literal.print literal.value.lexemes := by
  obtain ⟨value, quote⟩ := literal
  cases value with
  | null => exact Lexer.lays_spelling (Lexer.spelled_keyword (by decide))
  | bool value =>
    cases value
    · exact Lexer.lays_spelling (Lexer.spelled_keyword (by decide))
    · exact Lexer.lays_spelling (Lexer.spelled_keyword (by decide))
  | int value =>
    have hcount : ∀ count : Nat, Lexer.Lays (Numeral.wholeText count) [.number (.int count)] :=
      fun count => Lexer.lays_spelling (Lexer.spelled_int count)
    by_cases hneg : value < 0
    · obtain ⟨count, hvalue⟩ := Int.eq_ofNat_of_zero_le (show 0 ≤ -value by omega)
      simp only [print, Scalar.lexemes, if_pos hneg, Numeral.wholeText_of_neg hneg, hvalue]
      exact (hcount count).sign (show Symbol.minus ∈ Lexer.shortSigns by decide)
    · obtain ⟨count, rfl⟩ := Int.eq_ofNat_of_zero_le (Int.not_lt.mp hneg)
      simpa [print, Scalar.lexemes, hneg] using hcount count
  | float value =>
    cases value with
    | finite negative units representable =>
      have hspelled := Lexer.spelled_float (Numeral.takeUnsigned?_of_takeFloat? h.2)
      have hfloat := Lexer.lays_spelling hspelled
      cases negative
      · exact hfloat
      · exact hfloat.sign (show Symbol.minus ∈ Lexer.shortSigns by decide)
    | infinite negative => cases h.1
    | nan => cases h.1
  | text value => exact Lexer.lays_quoted quote.mark_eq value

/-- No comment begins inside a literal, and none behind it goes on from there. -/
theorem Literal.kept {literal : Literal} (h : literal.value.ReadsBack) : SourceText.Kept literal.print := by
  obtain ⟨value, quote⟩ := literal
  cases value with
  | null => exact SourceText.kept_of_forall (show ∀ c ∈ Text.ofString "NULL", c ∉ SourceText.marks by decide)
  | bool value =>
    cases value
    · exact SourceText.kept_of_forall (show ∀ c ∈ Text.ofString "FALSE", c ∉ SourceText.marks by decide)
    · exact SourceText.kept_of_forall (show ∀ c ∈ Text.ofString "TRUE", c ∉ SourceText.marks by decide)
  | int value =>
    have hcount (count : Nat) : SourceText.Kept (Numeral.wholeText count) ∧
        SourceText.Kept (.char '-' :: Numeral.wholeText count) := by
      have hkept := SourceText.kept_numeral (Numeral.isMantissa_toDigits count) (.inl rfl)
      have htext : Numeral.wholeText count = Text.ofChars (Nat.toDigits 10 count) ++ [] := by
        simp [Numeral.wholeText, show ¬(count : Int) < 0 by omega]
      rwa [htext]
    by_cases hneg : value < 0
    · obtain ⟨count, hvalue⟩ := Int.eq_ofNat_of_zero_le (show 0 ≤ -value by omega)
      rw [print, Numeral.wholeText_of_neg hneg, hvalue]
      exact (hcount count).2
    · obtain ⟨count, rfl⟩ := Int.eq_ofNat_of_zero_le (Int.not_lt.mp hneg)
      exact (hcount count).1
  | float value =>
    cases value with
    | finite negative units representable =>
      obtain ⟨point, mantissa, exponent, hmantissa, hexponent, htext⟩ :=
        Numeral.takeUnsigned?_eq (Numeral.takeUnsigned?_of_takeFloat? h.2)
      have hkept := SourceText.kept_numeral hmantissa hexponent
      rw [← htext] at hkept
      cases negative
      · exact hkept.1
      · exact hkept.2
    | infinite negative => cases h.1
    | nan => cases h.1
  | text value =>
    have hquote : SourceText.isQuote quote.mark = true := by cases quote <;> decide
    exact SourceText.kept_quoted hquote value

/-! ## The whole statement -/

theorem separated_map {α β : Type} (lexemesOf : β → List Lexeme) (make : α → β) (items : List α) :
    separated lexemesOf (items.map make) = separated (fun item => lexemesOf (make item)) items := by
  cases items with
  | nil => rfl
  | cons item items => simp [separated, List.flatMap_map]

def tupleLexemes (values : List Scalar) : List Lexeme :=
  .symbol .openParen :: (separated Scalar.lexemes values ++ [.symbol .closeParen])

def insertLexemes (table : Text) (columns : List Text) (rows : List (List Scalar)) : List Lexeme :=
  .keyword "INSERT" :: .keyword "INTO" :: .name table :: .symbol .openParen ::
    (separated (fun name => [.name name]) columns ++ .symbol .closeParen :: .keyword "VALUES" ::
      separated tupleLexemes rows)

namespace Parser

variable {follow : List Lexeme → Prop}

theorem insertedValue_parses (value : Scalar) : Parses insertedValue value.lexemes value follow := by
  have hvalue : Parses insertedValue (value.lexemes ++ []) value follow :=
    (literal_parses value).bind parses_pure fun _ h => h
  rwa [List.append_nil] at hvalue

theorem insertedTuple_parses {values : List Scalar} (hne : values ≠ []) :
    Parses insertedTuple (tupleLexemes values) values fun _ => True := by
  have hvalues := commaSeparated_parses_closed hne fun value _ => insertedValue_parses value
  have hclose : Parses (expectSymbol .closeParen "')' after VALUES tuple" >>= fun _ => pure values)
      [.symbol .closeParen] values fun _ => True := parses_expectSymbol _ _ parses_pure
  apply parses_expectSymbol
  exact hvalues.bind hclose fun _ _ => rfl

theorem insert_parses (table : Text) {columns : List Text} {rows : List (List Scalar)} (hcolumns : columns ≠ [])
    (hrows : rows ≠ [] ∧ ∀ row ∈ rows, row ≠ []) :
    Parses insert (insertLexemes table columns rows) ⟨table, some columns, rows⟩ (· = [.endOfInput]) := by
  obtain ⟨row, rows, rfl⟩ := List.exists_cons_of_ne_nil hrows.1
  have htuples : Parses (commaSeparated insertedTuple) (separated tupleLexemes (row :: rows)) (row :: rows)
      (· = [.endOfInput]) := by
    have hend : ∀ more, more = [.endOfInput] → True ∧ firstOf more ≠ .symbol .comma := by
      rintro _ rfl
      simp [firstOf]
    exact commaSeparated_parses (fun _ => trivial) hend fun row hrow => insertedTuple_parses (hrows.2 row hrow)
  apply parses_expectKeyword
  apply parses_expectKeyword
  apply parses_expectName
  refine parses_current_cons fun token htoken => ?_
  rw [if_pos htoken]
  apply parses_nameList _ hcolumns
  rw [pure_bind]
  exact parses_accepted (by simp) (by simp) (htuples.make fun rows => (⟨table, some columns, rows⟩ : Insert))

theorem statement_parses_insert (table : Text) {columns : List Text} {rows : List (List Scalar)}
    (hcolumns : columns ≠ []) (hrows : rows ≠ [] ∧ ∀ row ∈ rows, row ≠ []) :
    Parses statement (insertLexemes table columns rows) (.insert ⟨table, some columns, rows⟩)
      (· = [.endOfInput]) := by
  refine statement_parses (parses_current_cons fun token htoken => ?_)
  rw [htoken]
  exact (insert_parses table hcolumns hrows).make Statement.insert

end Parser

section
variable {table : Text} {columns : List Text} {rows : List (List Literal)}

theorem lays_printedTuple {row : List Literal} (hvalues : ∀ literal ∈ row, literal.value.ReadsBack) :
    Lexer.Lays (printedTuple row) (tupleLexemes (row.map (·.value))) := by
  have hspace : ∀ c ∈ Text.ofString " ", Text.isBlank c = true := by decide
  have hitems := Lexer.lays_separated hspace fun literal hliteral => Literal.lays (hvalues literal hliteral)
  rw [tupleLexemes, separated_map]
  exact hitems.enclose Lexer.lays_nil

theorem lays_printedInsert (htable : IsName table) (hcolumns : ∀ name ∈ columns, IsName name)
    (hvalues : ∀ row ∈ rows, ∀ literal ∈ row, literal.value.ReadsBack) :
    Lexer.Lays (printedInsert table columns rows)
      (insertLexemes table columns (rows.map (·.map (·.value)))) := by
  have hspace : ∀ c ∈ Text.ofString " ", Text.isBlank c = true := by decide
  have hrows := Lexer.lays_separated hspace fun row hrow => lays_printedTuple (hvalues row hrow)
  have hvalues := (Lexer.lays_spelling (Lexer.spelled_keyword (show "VALUES" ∈ keywords by decide))).append
    (Lexer.boundary_cons (by decide)) hrows.space
  have hnames := (Lexer.lays_names hcolumns).enclose hvalues.space
  have htable := (Lexer.lays_name htable).append (Lexer.boundary_cons (by decide)) hnames.space
  have hwords : ∀ word ∈ ["INSERT", "INTO"], IsCapital word := by decide
  have hinsert := (Lexer.lays_words hwords).append (Lexer.boundary_cons (by decide)) htable.space
  rw [printedInsert, insertLexemes]
  simp only [List.append_assoc, separated_map]
  exact hinsert

theorem kept_printedTuple {row : List Literal} (hvalues : ∀ literal ∈ row, literal.value.ReadsBack) :
    SourceText.Kept (printedTuple row) := by
  have hcomma : SourceText.Kept (Text.ofString ", ") := SourceText.kept_of_forall (by decide)
  have hitems : SourceText.Kept (List.intercalate ", " (row.map Literal.print)) :=
    SourceText.kept_intercalate hcomma
      (List.forall_mem_map.mpr fun literal hliteral => Literal.kept (hvalues literal hliteral))
  exact ((SourceText.kept_char (by decide)).append hitems).append (SourceText.kept_char (by decide))

theorem kept_printedInsert (htable : IsName table) (hcolumns : ∀ name ∈ columns, IsName name)
    (hvalues : ∀ row ∈ rows, ∀ literal ∈ row, literal.value.ReadsBack) :
    SourceText.Kept (printedInsert table columns rows) := by
  have hplain : ∀ word ∈ ["INSERT INTO ", " (", ") VALUES ", ", "], SourceText.Kept (Text.ofString word) := by
    have hmarks : ∀ word ∈ ["INSERT INTO ", " (", ") VALUES ", ", "],
        ∀ c ∈ Text.ofString word, c ∉ SourceText.marks := by decide
    exact fun word hword => SourceText.kept_of_forall (hmarks word hword)
  have hnames : SourceText.Kept (List.intercalate ", " columns) :=
    SourceText.kept_intercalate (hplain _ (by decide)) fun name hname => SourceText.kept_word (hcolumns name hname).1
  have hrows : SourceText.Kept (List.intercalate ", " (rows.map printedTuple)) :=
    SourceText.kept_intercalate (hplain _ (by decide))
      (List.forall_mem_map.mpr fun row hrow => kept_printedTuple (hvalues row hrow))
  have hfront := (hplain "INSERT INTO " (by decide)).append (SourceText.kept_word htable.1)
  have hmiddle := (hfront.append (hplain " (" (by decide))).append hnames
  exact (hmiddle.append (hplain ") VALUES " (by decide))).append hrows

theorem solid_printedInsert (hrows : rows ≠ []) : Text.Solid (printedInsert table columns rows) := by
  have hopen : Text.Solid (Text.ofString "(") := Text.solid_of_forall (by decide) (by decide)
  have hclose : Text.Solid (Text.ofString ")") := Text.solid_of_forall (by decide) (by decide)
  have htuples : Text.Solid (List.intercalate ", " (rows.map printedTuple)) :=
    Text.solid_intercalate (by simpa using hrows) (List.forall_mem_map.mpr fun row _ => hopen.append hclose)
  have hinsert : Text.Solid (Text.ofString "INSERT") := Text.solid_of_forall (by decide) (by decide)
  have hsplit : Text.ofString "INSERT INTO " = Text.ofString "INSERT" ++ Text.ofString " INTO " := by decide
  have hwhole (middle : Text) :
      Text.Solid (Text.ofString "INSERT" ++ middle ++ List.intercalate ", " (rows.map printedTuple)) :=
    hinsert.append htuples
  simpa [printedInsert, hsplit] using
    hwhole (" INTO " ++ table ++ " (" ++ List.intercalate ", " columns ++ ") VALUES ")

/-- What is written for an INSERT is read as this INSERT, whatever texts it holds. -/
theorem parse_printedInsert (htable : IsName table) (hcolumns : columns ≠ [] ∧ ∀ name ∈ columns, IsName name)
    (hrows : rows ≠ [] ∧ ∀ row ∈ rows, row ≠ [])
    (hvalues : ∀ row ∈ rows, ∀ literal ∈ row, literal.value.ReadsBack) :
    parse (Text.trim (SourceText.withoutComments (printedInsert table columns rows))) =
      .ok (.insert ⟨table, some columns, rows.map (·.map (·.value))⟩) := by
  have hsolid : Text.Solid (printedInsert table columns rows) := solid_printedInsert hrows.1
  have hrows' : rows.map (·.map (·.value)) ≠ [] ∧ ∀ row ∈ rows.map (·.map (·.value)), row ≠ [] := by
    constructor
    · simpa using hrows.1
    · simpa using hrows.2
  rw [(kept_printedInsert htable hcolumns.2 hvalues).withoutComments, hsolid.trim]
  exact parse_of_lays hsolid (lays_printedInsert htable hcolumns.2 hvalues)
    (Parser.statement_parses_insert table hcolumns.1 hrows')

end

/-- Rows that hold a quote of either kind beside the other one, what looks like comments and the end of a
statement, a line break, and numbers below zero. -/
def awkwardRows : List (List Literal) := [
  [⟨.text "it's 5\" -- wide", .single⟩, ⟨.int (-12), .single⟩, ⟨.null, .single⟩],
  [⟨.text "\"); DROP TABLE t; /* '\n# //", .double⟩, ⟨.float (.ofDecimal true 25 (-8)), .single⟩,
    ⟨.bool true, .single⟩]]

example : printedInsert "t" ["note", "n", "flag"] awkwardRows =
    Text.ofString "INSERT INTO t (note, n, flag) VALUES ('it''s 5\" -- wide', -12, NULL), " ++
      Text.ofString "(\"\"\"); DROP TABLE t; /* '\n# //\", -2.5e-07, TRUE)" := by
  decide +kernel

theorem parse_printedInsert_awkward :
    parse (Text.trim (SourceText.withoutComments (printedInsert "t" ["note", "n", "flag"] awkwardRows))) =
      .ok (.insert ⟨"t", some ["note", "n", "flag"], awkwardRows.map (·.map (·.value))⟩) :=
  parse_printedInsert (by decide +kernel) (by decide +kernel) (by decide) (by decide +kernel)

end SnapshotSql
