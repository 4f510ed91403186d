import SnapshotSql.Proofs.QueryShapes
import SnapshotSql.Proofs.SpelledNumbers
import SnapshotSql.Proofs.WrittenLexemes

/-! # Printing undoes parsing

The canonical text of a query that is read is read as this query again. Its lexemes are taken from their
spellings, because its names come from tokens and its other lexemes are spelled by the printer; and the
grammar makes of them what it has made before, because the query has the shape that the grammar gives.
-/
namespace SnapshotSql

/-! ## Literals -/

def Operand.literals : Operand → List Scalar
  | .column _ => []
  | .literal value => [value]

def Condition.literals : Condition → List Scalar
  | .compare left _ right => left.literals ++ right.literals
  | .like left _ _ => left.literals
  | .inList left items _ => left.literals ++ items.flatMap Operand.literals
  | .between left low high _ => left.literals ++ low.literals ++ high.literals
  | .isNull left _ => left.literals
  | .and left right => left.literals ++ right.literals
  | .or left right => left.literals ++ right.literals
  | .group inner => inner.literals

def Select.literals (query : Select) : List Scalar :=
  (query.condition.toList ++ query.having.toList).flatMap Condition.literals

def Delete.literals (deletion : Delete) : List Scalar :=
  deletion.condition.toList.flatMap Condition.literals

/-- A float is finite and is read back from its text. -/
def Scalar.ReadsBack : Scalar → Prop
  | .float value => value.isFinite = true ∧ Numeral.takeFloat? value.text = some (value, [])
  | _ => True

instance : DecidablePred Scalar.ReadsBack
  | .float _ => inferInstanceAs (Decidable (_ ∧ _))
  | .null => .isTrue trivial
  | .bool _ => .isTrue trivial
  | .int _ => .isTrue trivial
  | .text _ => .isTrue trivial

/-! ## Lexemes that are read back -/

def queryWords : List String := [
  "SELECT", "DISTINCT", "FROM", "AS", "WHERE", "GROUP", "BY", "HAVING", "ORDER", "DESC", "LIMIT", "OFFSET",
  "DELETE", "AND", "OR", "NOT", "LIKE", "IN", "BETWEEN", "IS", "NULL", "TRUE", "FALSE"]

/-- All lexemes but the names are taken from their spellings, and no reserved word is one of a join. -/
def Plain (lexemes : List Lexeme) : Prop :=
  ∀ lexeme ∈ lexemes, (∃ name, lexeme = .name name) ∨ lexeme.Spelled ∧ lexeme ≠ .keyword "JOIN"

section
variable {lexeme : Lexeme} {lexemes lexemes' : List Lexeme}

@[simp] theorem plain_nil : Plain [] :=
  List.forall_mem_nil _

@[simp] theorem plain_append : Plain (lexemes ++ lexemes') ↔ Plain lexemes ∧ Plain lexemes' :=
  List.forall_mem_append

theorem plain_cons (h : (∃ name, lexeme = .name name) ∨ lexeme.Spelled ∧ lexeme ≠ .keyword "JOIN") :
    Plain (lexeme :: lexemes) ↔ Plain lexemes := by
  simp only [Plain, List.forall_mem_cons, h, true_and]

@[simp] theorem plain_name (name : Text) : Plain (.name name :: lexemes) ↔ Plain lexemes :=
  plain_cons (.inl ⟨name, rfl⟩)

@[simp] theorem plain_text (value : Text) : Plain (.text value :: lexemes) ↔ Plain lexemes :=
  plain_cons (.inr ⟨Lexer.spelled_text value, nofun⟩)

@[simp] theorem plain_symbol (symbol : Symbol) : Plain (.symbol symbol :: lexemes) ↔ Plain lexemes :=
  plain_cons (.inr ⟨Lexer.spelled_symbol symbol, nofun⟩)

@[simp] theorem plain_count (count : Nat) : Plain (.number (.int count) :: lexemes) ↔ Plain lexemes :=
  plain_cons (.inr ⟨Lexer.spelled_int count, nofun⟩)

@[simp] theorem plain_keyword {word : String} (h : word ∈ queryWords) :
    Plain (.keyword word :: lexemes) ↔ Plain lexemes := by
  have hwords : ∀ word ∈ queryWords, word ∈ keywords ∧ word ≠ "JOIN" := by decide
  obtain ⟨hword, hjoin⟩ := hwords word h
  exact plain_cons (.inr ⟨Lexer.spelled_keyword hword, by simpa using hjoin⟩)

theorem plain_wordIf {word : String} (h : word ∈ queryWords) (present : Bool) : Plain (wordIf word present) := by
  cases present
  · exact plain_nil
  · exact (plain_keyword h).mpr plain_nil

theorem plain_separated {α : Type} {lexemesOf : α → List Lexeme} {items : List α}
    (h : ∀ item ∈ items, Plain (lexemesOf item)) : Plain (separated lexemesOf items) := by
  cases items with
  | nil => exact plain_nil
  | cons item items =>
    obtain ⟨hitem, hitems⟩ := List.forall_mem_cons.mp h
    refine plain_append.mpr ⟨hitem, fun lexeme hlexeme => ?_⟩
    obtain ⟨other, hother, hmem⟩ := List.mem_flatMap.mp hlexeme
    exact (plain_symbol .comma).mpr (hitems other hother) lexeme hmem

end

theorem Scalar.ReadsBack.plain {value : Scalar} (h : value.ReadsBack) : Plain value.lexemes := by
  cases value with
  | null => simp (disch := decide) [lexemes]
  | bool value => cases value <;> simp (disch := decide) [Scalar.lexemes]
  | int value =>
    rw [Scalar.lexemes]
    split
    · next hneg =>
      obtain ⟨count, hcount⟩ := Int.eq_ofNat_of_zero_le (Int.neg_nonneg_of_nonpos (Int.le_of_lt hneg))
      simp [hcount]
    · next hneg =>
      obtain ⟨count, rfl⟩ := Int.eq_ofNat_of_zero_le (Int.not_lt.mp hneg)
      simp
  | float value =>
    cases value with
    | finite negative units representable =>
      have hspelled := Lexer.spelled_float (Numeral.takeUnsigned?_of_takeFloat? h.2)
      have hfloat := plain_cons (.inr ⟨hspelled, by simp⟩) |>.mpr plain_nil
      cases negative
      · exact hfloat
      · exact (plain_symbol .minus).mpr hfloat
    | _ => cases h.1
  | text value => simp (disch := decide) [Scalar.lexemes]

theorem Operand.plain {operand : Operand} (h : ∀ value ∈ operand.literals, value.ReadsBack) :
    Plain operand.lexemes := by
  cases operand with
  | column name => simp [Operand.lexemes]
  | literal value => exact (h value List.mem_cons_self).plain

theorem Condition.plain {condition : Condition} (h : ∀ value ∈ condition.literals, value.ReadsBack) :
    Plain condition.lexemes := by
  induction condition with
  | compare left comparison right =>
    simp only [literals, List.forall_mem_append] at h
    simp (disch := decide) [lexemes, Operand.plain h.1, Operand.plain h.2]
  | like left pattern negated =>
    simp (disch := decide) [lexemes, Operand.plain h, plain_wordIf]
  | inList left items negated =>
    simp only [literals, List.forall_mem_append, List.forall_mem_flatMap] at h
    have hitems := plain_separated fun item hitem => Operand.plain (h.2 item hitem)
    simp (disch := decide) [lexemes, Operand.plain h.1, plain_wordIf, hitems]
  | between left low high negated =>
    simp only [literals, List.forall_mem_append] at h
    simp (disch := decide) [lexemes, Operand.plain h.1.1, Operand.plain h.1.2, Operand.plain h.2, plain_wordIf]
  | isNull left negated =>
    simp (disch := decide) [lexemes, Operand.plain h, plain_wordIf]
  | and left right ih ih' =>
    simp only [literals, List.forall_mem_append] at h
    simp (disch := decide) [lexemes, ih h.1, ih' h.2]
  | or left right ih ih' =>
    simp only [literals, List.forall_mem_append] at h
    simp (disch := decide) [lexemes, ih h.1, ih' h.2]
  | group inner ih => simp (disch := decide) [lexemes, ih h]

theorem plain_conditionLexemes {word : String} (hword : word ∈ queryWords) {condition? : Option Condition}
    (h : ∀ condition ∈ condition?, Plain condition.lexemes) : Plain (conditionLexemes word condition?) := by
  cases condition? with
  | none => exact plain_nil
  | some condition => exact (plain_keyword hword).mpr (h condition rfl)

theorem plain_listLexemes {α : Type} {word : String} (hword : word ∈ queryWords) {lexemesOf : α → List Lexeme}
    {items : List α} (h : ∀ item ∈ items, Plain (lexemesOf item)) : Plain (listLexemes word lexemesOf items) := by
  cases items with
  | nil => exact plain_nil
  | cons item items => exact (plain_keyword hword).mpr ((plain_keyword (by decide)).mpr (plain_separated h))

theorem plain_boundLexemes (limit : Option Nat) (offset : Nat) : Plain (boundLexemes limit offset) := by
  unfold boundLexemes
  refine plain_append.mpr ⟨?_, ?_⟩
  · cases limit <;> simp (disch := decide)
  · split <;> simp (disch := decide)

theorem SelectItem.plain (item : SelectItem) : Plain item.lexemes := by
  cases item with
  | star table => cases table <;> simp [lexemes]
  | column name label => simp (disch := decide) [lexemes]
  | aggregate function argument label =>
    rw [lexemes]
    split <;> simp (disch := decide)

theorem Select.plain {query : Select} (h : ∀ value ∈ query.literals, value.ReadsBack) : Plain query.lexemes := by
  simp only [literals, List.forall_mem_flatMap, List.forall_mem_append, Option.mem_toList] at h
  have hcondition : Plain (conditionLexemes "WHERE" query.condition) :=
    plain_conditionLexemes (by decide) fun condition hmem => Condition.plain (h.1 condition hmem)
  have hhaving : Plain (conditionLexemes "HAVING" query.having) :=
    plain_conditionLexemes (by decide) fun condition hmem => Condition.plain (h.2 condition hmem)
  have hgroup : Plain (listLexemes "GROUP" (fun name => [.name name]) query.groupBy) :=
    plain_listLexemes (by decide) fun name _ => by simp
  have horder : Plain (listLexemes "ORDER" OrderItem.lexemes query.orderBy) :=
    plain_listLexemes (by decide) fun item _ => by simp (disch := decide) [OrderItem.lexemes, plain_wordIf]
  have halias : Plain (aliasLexemes query.tableAlias) := by
    cases query.tableAlias <;> simp (disch := decide) [aliasLexemes]
  have hitems := plain_separated fun item (_ : item ∈ query.items) => item.plain
  simp (disch := decide) [lexemes, clauses, hcondition, hhaving, hgroup, horder, halias, hitems, plain_wordIf,
    plain_boundLexemes]

theorem Delete.plain {deletion : Delete} (h : ∀ value ∈ deletion.literals, value.ReadsBack) :
    Plain deletion.lexemes := by
  simp only [literals, List.forall_mem_flatMap, Option.mem_toList] at h
  have hcondition : Plain (conditionLexemes "WHERE" deletion.condition) :=
    plain_conditionLexemes (by decide) fun condition hmem => Condition.plain (h condition hmem)
  simp (disch := decide) [lexemes, hcondition]

/-! ## From the text to the text -/

theorem isName_function (function : AggregateFunction) : IsName function.name := by
  cases function <;> decide

/-- Every name among the tokens of a text is a name that the lexer takes. -/
theorem namesIn_scan {position skip : Nat} {text : Text} {tokens : List Token}
    (h : Lexer.scan position skip text = .ok tokens) : NamesIn IsName (tokens.map (·.lexeme)) := by
  induction text generalizing position skip tokens with
  | nil =>
    cases h
    simp
  | cons c cs ih =>
    unfold Lexer.scan at h
    split at h
    · exact ih h
    · split at h
      · exact ih h
      · split at h
        · cases h
        · next lexeme count hlexeme =>
          obtain ⟨rest, hrest, rfl⟩ := Check.map_eq_ok.mp h
          rw [List.map_cons, namesIn_cons]
          refine ⟨fun name hname => ?_, ih hrest⟩
          rw [show lexeme = .name name from hname] at hlexeme
          exact Lexer.isWord_of_takeLexeme hlexeme

/-- What a parser shows of the statements behind names, every statement that is read from a text has. -/
theorem Parser.Shows.of_parse {holds : Statement → Prop} (h : Shows IsName bareStatement holds) {text : Text}
    {statement : Statement} (hparse : parse text = .ok statement) : holds statement := by
  rw [parse] at hparse
  obtain ⟨tokens, hscan, hparse⟩ := Check.bind_eq_ok.mp hparse
  obtain ⟨⟨answer, rest⟩, hrun, heq⟩ := Check.map_eq_ok.mp (Check.orFail_eq_ok.mp hparse)
  cases heq
  exact h.statement tokens answer rest (namesIn_scan hscan) hrun

/-- What is read from a text. -/
theorem parse_shows {text : Text} {statement : Statement} (h : parse text = .ok statement) :
    Parser.QueryOf IsName statement :=
  (Parser.bareStatement_shows (fun _ => IsName.ne_nil) isName_function).of_parse h

/-- Lexemes that are read as a statement are so from their spelling. -/
theorem parse_spelled {lexemes : List Lexeme} {statement : Statement} (hne : lexemes ≠ [])
    (hnames : NamesIn IsName lexemes) (hplain : Plain lexemes)
    (h : Parser.Parses Parser.statement lexemes statement (· = [.endOfInput])) :
    parse (spelled lexemes) = .ok statement := by
  have hspelled : ∀ lexeme ∈ lexemes, lexeme.Spelled := by
    intro lexeme hlexeme
    obtain ⟨name, rfl⟩ | hlexeme := hplain lexeme hlexeme
    · have hname := hnames name hlexeme
      exact Lexer.spelled_name hname.1 hname.2
    · exact hlexeme.1
  obtain ⟨tokens, hscan, htokens⟩ := Lexer.scan_spelled hspelled 0
  exact parse_of_scan (Lexer.solid_spelled hspelled hne) hscan htokens h

/-- The canonical text of a SELECT or a DELETE that has been read is read as the same query, if its floats
are finite and are read back from their texts. -/
theorem parse_print (text : Text) :
    (∀ query, parse text = .ok (.select query) → (∀ value ∈ query.literals, value.ReadsBack) →
      parse query.print = .ok (.select query)) ∧
    (∀ deletion, parse text = .ok (.delete deletion) → (∀ value ∈ deletion.literals, value.ReadsBack) →
      parse deletion.print = .ok (.delete deletion)) := by
  refine ⟨fun query h hliterals => ?_, fun deletion h hliterals => ?_⟩
  · obtain ⟨hregular, hnames⟩ : query.Regular ∧ NamesIn IsName query.lexemes := parse_shows h
    have hplain := Select.plain hliterals
    have hjoin : .keyword "JOIN" ∉ query.lexemes := fun hmem => by
      obtain ⟨name, hname⟩ | hother := hplain _ hmem
      · cases hname
      · exact hother.2 rfl
    exact parse_spelled (List.cons_ne_nil _ _) hnames hplain (Parser.statement_parses_select hregular hjoin)
  · obtain ⟨hcondition, hnames⟩ : Parsable deletion.condition ∧ NamesIn IsName deletion.lexemes := parse_shows h
    exact parse_spelled (List.cons_ne_nil _ _) hnames (Delete.plain hliterals)
      (Parser.statement_parses_delete hcondition)

/-- The number of employees of each department, with a group, a bonus below zero and a quote in a text. -/
def staffing : Select where
  items := [.column "dept" "dept", .aggregate .count "*" "n"]
  table := "emp"
  tableAlias := some "e"
  distinct := false
  condition := some (.and
    (.group (.or (.compare (.column "pay") .notEqual (.literal (.int 1)))
      (.compare (.column "e.note") .equal (.literal (.text "it's")))))
    (.between (.column "bonus") (.literal (.float (.ofDecimal true 5 (-1)))) (.literal (.int 2)) true))
  groupBy := ["dept"]
  having := none
  orderBy := []
  limit := some 5
  offset := 2

example : staffing.print = Text.ofString "SELECT dept AS 'dept' , COUNT ( * ) AS 'n' FROM emp AS e " ++
    Text.ofString "WHERE ( pay != 1 OR e.note = 'it''s' ) AND bonus NOT BETWEEN -0.5 AND 2 " ++
    Text.ofString "GROUP BY dept LIMIT 5 OFFSET 2" := by
  decide +kernel

theorem parse_print_staffing :
    parse staffing.print = .ok (.select staffing) ∧
      parse (Delete.mk "emp" (some (.isNull (.column "pay") true))).print =
        .ok (.delete ⟨"emp", some (.isNull (.column "pay") true)⟩) := by
  have hselect : parse (Text.ofString "SELECT dept, COUNT(*) n FROM emp e WHERE (pay <> 1 OR e.note = \"it's\") " ++
      Text.ofString "AND bonus NOT BETWEEN -.5 AND 2 GROUP BY dept LIMIT 2, 5;") = .ok (.select staffing) := by
    decide +kernel
  have hdelete : parse "delete from emp where pay is not null" =
      .ok (.delete ⟨"emp", some (.isNull (.column "pay") true)⟩) := by
    decide +kernel
  exact ⟨(parse_print _).1 staffing hselect (by decide +kernel), (parse_print _).2 _ hdelete (by decide +kernel)⟩

end SnapshotSql
