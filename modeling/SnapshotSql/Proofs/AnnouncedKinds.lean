import Mathlib.Data.List.TakeWhile
import SnapshotSql.Execution
import SnapshotSql.Proofs.BareTexts
import SnapshotSql.Proofs.ParserRules
import SnapshotSql.Proofs.StatementCuts

/-! # The kind that the first words announce

Which way a text is run is told from its first characters, before it has tokens. The grammar goes by the first
tokens instead. They agree on every text that is a statement: a reserved word that is a token of the text has no
point in it and ends where no letter, digit or underscore follows, so it is also one of the first words, and two
such words have a blank between them. What the two of them make of a semicolon in front differs.
-/
namespace SnapshotSql

def SourceText.Kind.words : SourceText.Kind → List String
  | .createTable => ["CREATE", "TABLE"]
  | .createView => ["CREATE", "VIEW"]
  | .dropTable => ["DROP", "TABLE"]
  | .insert => ["INSERT"]
  | .update => ["UPDATE"]
  | .delete => ["DELETE"]
  | .select => ["SELECT"]

def Statement.kind : Statement → SourceText.Kind
  | .createTable _ => .createTable
  | .createView _ => .createView
  | .dropTable _ => .dropTable
  | .insert _ => .insert
  | .update _ => .update
  | .delete _ => .delete
  | .select _ => .select

/-- Lexemes that begin with the words of a kind. -/
def Announces (lexemes : List Lexeme) (kind : SourceText.Kind) : Prop :=
  kind.words.map .keyword <+: lexemes

/-- The end of the input announces nothing. -/
theorem announces_of_concat {lexemes : List Lexeme} {kind : SourceText.Kind}
    (h : Announces (lexemes ++ [.endOfInput]) kind) : Announces lexemes kind := by
  obtain heq | hprefix := List.prefix_concat_iff.mp h
  · have hend : Lexeme.endOfInput ∈ kind.words.map Lexeme.keyword := by simp [heq]
    simp at hend
  · exact hprefix

/-! ## The grammar goes by the first tokens -/

namespace Parser

variable {tokens : List Token}

/-- What the parser answers has the kind that the tokens it is given announce. -/
def Announced (parser : Parser Statement) (tokens : List Token) : Prop :=
  ∀ result rest, parser tokens = .ok (result, rest) → Announces (tokens.map (·.lexeme)) result.kind

theorem announced_map {α : Type} {parser : Parser α} {statementOf : α → Statement} {kind : SourceText.Kind}
    (hkind : ∀ value, (statementOf value).kind = kind) (h : Announces (tokens.map (·.lexeme)) kind) :
    Announced (do return statementOf (← parser)) tokens := by
  intro result rest hrun
  obtain ⟨value, _, -, hrun⟩ := bind_eq_ok.mp hrun
  cases hrun
  rwa [hkind]

theorem announced_reject {error : SqlError} : Announced (reject error) tokens :=
  nofun

theorem announced_current {next : Token → Parser Statement} (h : Announced (next (tokens.headD lastToken)) tokens) :
    Announced (current >>= next) tokens :=
  h

theorem announced_following {next : Token → Parser Statement}
    (h : Announced (next ((tokens.drop 1).headD lastToken)) tokens) : Announced (following >>= next) tokens :=
  h

theorem Announced.bind_same {parser : Parser Statement} {next : Statement → Parser Statement}
    (h : Announced parser tokens) (hnext : ∀ result, Yields (next result) (· = result)) :
    Announced (parser >>= next) tokens := by
  intro result rest hrun
  obtain ⟨first, middle, hfirst, hrun⟩ := bind_eq_ok.mp hrun
  rw [hnext first middle result rest hrun]
  exact h first middle hfirst

/-- The lexemes of tokens with the first one known, which is not the end of the input. -/
theorem map_lexeme_of_headD {lexeme : Lexeme} (h : (tokens.headD lastToken).lexeme = lexeme)
    (hne : lexeme ≠ .endOfInput) : tokens.map (·.lexeme) = lexeme :: (tokens.drop 1).map (·.lexeme) := by
  cases tokens with
  | nil => exact absurd h.symm hne
  | cons token tokens =>
    subst h
    rfl

theorem announces_of_headD {kind : SourceText.Kind} {word : String} (hwords : kind.words = [word])
    (h : (tokens.headD lastToken).lexeme = .keyword word) : Announces (tokens.map (·.lexeme)) kind := by
  rw [Announces, hwords, map_lexeme_of_headD h nofun]
  exact ⟨_, rfl⟩

theorem announces_of_following {kind : SourceText.Kind} {word next : String} (hwords : kind.words = [word, next])
    (h : (tokens.headD lastToken).lexeme = .keyword word)
    (hnext : ((tokens.drop 1).headD lastToken).lexeme = .keyword next) : Announces (tokens.map (·.lexeme)) kind := by
  rw [Announces, hwords, map_lexeme_of_headD h nofun, map_lexeme_of_headD hnext nofun]
  exact ⟨_, rfl⟩

theorem announced_bareStatement (tokens : List Token) : Announced bareStatement tokens := by
  refine announced_current ?_
  split
  · next hcreate =>
    refine announced_following ?_
    split
    · next htable => exact announced_map (fun _ => rfl) (announces_of_following rfl hcreate htable)
    · next hview => exact announced_map (fun _ => rfl) (announces_of_following rfl hcreate hview)
    · exact announced_reject
  · next hdrop =>
    refine announced_following ?_
    split
    · next htable => exact announced_map (fun _ => rfl) (announces_of_following rfl hdrop htable)
    · exact announced_reject
  · next hinsert => exact announced_map (fun _ => rfl) (announces_of_headD rfl hinsert)
  · next hupdate => exact announced_map (fun _ => rfl) (announces_of_headD rfl hupdate)
  · next hdelete => exact announced_map (fun _ => rfl) (announces_of_headD rfl hdelete)
  · next hselect => exact announced_map (fun _ => rfl) (announces_of_headD rfl hselect)
  · exact announced_reject
  · exact announced_reject

theorem announced_statement (tokens : List Token) : Announced statement tokens :=
  (announced_bareStatement tokens).bind_same fun _ => Yields.andThen fun _ => Yields.andThen fun _ =>
    Yields.ite (yields_pure rfl) (Yields.ite yields_reject yields_complain)

end Parser

/-! ## The first tokens are the first words -/

namespace Lexer

variable {text rest spelling : Text} {lexeme : Lexeme} {lexemes : List Lexeme} {word : String}

/-- Where the first lexeme of a text is written. -/
theorem Written.exists_spelling (h : Written text (lexeme :: lexemes)) : ∃ blanks spelling rest,
    text = blanks ++ (spelling ++ rest) ∧ (∀ c ∈ blanks, Text.isBlank c = true) ∧ Begins spelling lexeme rest ∧
      Written rest lexemes := by
  generalize hlexemes : lexeme :: lexemes = all at h
  induction h with
  | nil => cases hlexemes
  | @blank c text _ hblank _ ih =>
    obtain ⟨blanks, spelling, rest, rfl, hblanks, hrest⟩ := ih hlexemes
    exact ⟨c :: blanks, spelling, rest, rfl, List.forall_mem_cons.mpr ⟨hblank, hblanks⟩, hrest⟩
  | lexeme _ htaken h _ =>
    cases hlexemes
    exact ⟨[], _, _, rfl, List.forall_mem_nil _, begins_of_taken htaken, h⟩

theorem isWordChar_head?_of_takeWord (h : takeWord rest = []) : ∀ c ∈ rest.head?, Text.isWordChar c = false := by
  cases rest with
  | nil => nofun
  | cons c rest =>
    rintro _ ⟨⟩
    rw [takeWord] at h
    by_contra hword
    rw [if_pos (eq_true_of_ne_false hword)] at h
    cases h

/-- No reserved word has a point in it. -/
theorem isWordChar_of_keyword (hword : IsWord spelling) (h : Lexeme.ofWord spelling = .keyword word) :
    (∀ c ∈ spelling, Text.isWordChar c = true) ∧ (Text.upper spelling).toString = word := by
  have hpoints : ∀ word ∈ keywords, '.' ∉ word.toList := by decide
  rw [Lexeme.ofWord] at h
  split at h
  · next hmem =>
    cases h
    refine ⟨fun c hc => (hword.isWordChar hc).resolve_right ?_, rfl⟩
    rintro rfl
    refine hpoints _ (List.contains_iff_mem.mp hmem) ?_
    rw [Text.toString, String.toList_ofList]
    refine List.mem_map.mpr ⟨.char '.', ?_, rfl⟩
    exact List.mem_flatMap.mpr ⟨.char '.', hc, by decide⟩
  · cases h

/-- A reserved word is the word that the text begins with there. -/
theorem Begins.takeWord_keyword (h : Begins spelling (.keyword word) rest) :
    takeWord rest = [] ∧ (∃ c ∈ spelling.head?, Text.isWordChar c = true) ∧
      ∀ more : Text, (∀ c ∈ more.head?, Text.isWordChar c = false) →
        SourceText.takeWord (spelling ++ more) = (word, more) := by
  generalize hlexeme : Lexeme.keyword word = lexeme at h
  cases h with
  | word hword hrest =>
    obtain ⟨hchars, hupper⟩ := isWordChar_of_keyword hword hlexeme.symm
    refine ⟨hrest, ?_, fun more hmore => ?_⟩
    · obtain ⟨c, cs, rfl⟩ := List.exists_cons_of_ne_nil hword.solid.ne_nil
      exact ⟨c, rfl, hchars c List.mem_cons_self⟩
    · rw [SourceText.takeWord_of_isWordChar hchars hmore, hupper]
  | _ => cases hlexeme

end Lexer

namespace SourceText

open Lexer (Written)

variable {text rest more : Text} {lexemes : List Lexeme} {word : String} {kind : Kind}

/-- The first word of a text whose first lexeme is a reserved word. -/
theorem takeWord_of_written (h : Written text (.keyword word :: lexemes))
    (hmore : ∀ c ∈ more.head?, Text.isWordChar c = false) : ∃ rest,
      takeWord ((text ++ more).dropWhile Text.isBlank) = (word, rest ++ more) ∧ Written rest lexemes ∧
        Lexer.takeWord rest = [] := by
  obtain ⟨blanks, spelling, rest, rfl, hblanks, hbegins, hwritten⟩ := h.exists_spelling
  obtain ⟨hrest, -, htake⟩ := hbegins.takeWord_keyword
  have hend : ∀ c ∈ (rest ++ more).head?, Text.isWordChar c = false := by
    cases rest with
    | nil => exact hmore
    | cons c rest => simpa using Lexer.isWordChar_head?_of_takeWord hrest
  refine ⟨rest, ?_, hwritten, hrest⟩
  rw [List.append_assoc, List.append_assoc, List.dropWhile_append_of_pos hblanks, Text.dropWhile_isBlank, htake _ hend]
  rw [List.head?_append_of_ne_nil _ hbegins.solid.ne_nil]
  exact hbegins.solid.head

/-- Between a reserved word and the next one there is a blank. -/
theorem exists_blank_of_written (h : Written rest (.keyword word :: lexemes)) (hend : Lexer.takeWord rest = []) :
    ∃ c cs, rest = c :: cs ∧ Text.isBlank c = true := by
  obtain ⟨blanks, spelling, behind, rfl, hblanks, hbegins, -⟩ := h.exists_spelling
  cases blanks with
  | nil =>
    obtain ⟨-, ⟨c, hc, hword⟩, -⟩ := hbegins.takeWord_keyword
    have hnot := Lexer.isWordChar_head?_of_takeWord hend c (by
      rwa [List.nil_append, List.head?_append_of_ne_nil _ hbegins.solid.ne_nil])
    rw [hword] at hnot
    cases hnot
  | cons c blanks => exact ⟨c, _, rfl, hblanks c List.mem_cons_self⟩

/-- A text whose lexemes announce a kind has that kind by its first words, and keeps it whatever stands behind,
unless the last word goes on there. -/
theorem kind?_of_announces (h : Written text lexemes) (hkind : Announces lexemes kind)
    (hmore : ∀ c ∈ more.head?, Text.isWordChar c = false) : kind? (text ++ more) = some kind := by
  have hone (word : String) (hwords : kind.words = [word]) :
      ∃ rest, takeWord ((text ++ more).dropWhile Text.isBlank) = (word, rest) := by
    obtain ⟨others, rfl⟩ := hkind
    rw [hwords] at h
    obtain ⟨rest, hfirst, -⟩ := takeWord_of_written h hmore
    exact ⟨_, hfirst⟩
  have htwo (word next : String) (hwords : kind.words = [word, next]) : ∃ c cs, Text.isBlank c = true ∧
      takeWord ((text ++ more).dropWhile Text.isBlank) = (word, c :: cs) ∧
        (takeWord ((c :: cs).dropWhile Text.isBlank)).1 = next := by
    obtain ⟨others, rfl⟩ := hkind
    rw [hwords] at h
    obtain ⟨rest, hfirst, hwritten, hend⟩ := takeWord_of_written h hmore
    obtain ⟨c, cs, rfl, hblank⟩ := exists_blank_of_written hwritten hend
    obtain ⟨_, hsecond, -⟩ := takeWord_of_written hwritten hmore
    exact ⟨c, cs ++ more, hblank, hfirst, congrArg Prod.fst hsecond⟩
  cases kind with
  | createTable | createView | dropTable =>
    obtain ⟨c, cs, hblank, hfirst, hsecond⟩ := htwo _ _ rfl
    simp only [kind?, hfirst, hblank, if_true, hsecond]
  | insert | update | delete | select =>
    obtain ⟨rest, hfirst⟩ := hone _ rfl
    simp only [kind?, hfirst]

end SourceText

/-! ## Trimmed texts -/

namespace Text

/-- Trimming takes blanks away at both ends. -/
theorem exists_blanks_trim (text : Text) : ∃ front back, text = front ++ (trim text ++ back) ∧
    (∀ c ∈ front, isBlank c = true) ∧ ∀ c ∈ back, isBlank c = true := by
  refine ⟨text.takeWhile isBlank, (text.dropWhile isBlank).rtakeWhile isBlank, ?_,
    fun c hc => List.mem_takeWhile_imp hc, fun c hc => List.mem_rtakeWhile_imp hc⟩
  have hback : trim text ++ (text.dropWhile isBlank).rtakeWhile isBlank = text.dropWhile isBlank :=
    List.rdropWhile_append_rtakeWhile
  rw [hback, List.takeWhile_append_dropWhile]

theorem isBlank_head?_trim (text : Text) : ∀ c ∈ (trim text).head?, isBlank c = false := by
  intro c hc
  have hprefix : trim text <+: text.dropWhile isBlank := List.rdropWhile_prefix _ _
  have hhead : (text.dropWhile isBlank).head? = some c := by
    obtain ⟨back, hback⟩ := hprefix
    rw [← hback, List.head?_append, hc]
    rfl
  rw [← List.find?_not_eq_head?_dropWhile] at hhead
  simpa using List.find?_some hhead

end Text

/-! ## The kind of a text -/

namespace SourceText

variable {text first piece rest : Text} {more : List Text} {statement : Statement}

theorem kind?_blanks {front : Text} (hfront : ∀ c ∈ front, Text.isBlank c = true) (text : Text) :
    kind? (front ++ text) = kind? text := by
  rw [kind?, kind?, List.dropWhile_append_of_pos hfront]

theorem not_isWordChar_of_isBlank {c : CodePoint} (h : Text.isBlank c = true) : Text.isWordChar c = false := by
  by_contra hword
  rw [Text.isBlank_eq_false (eq_true_of_ne_false hword)] at h
  cases h

/-- A text that is a statement has the kind of it by its first words, whatever stands behind unless a word goes on. -/
theorem kind?_of_parse (h : parse text = .ok statement) (hrest : ∀ c ∈ rest.head?, Text.isWordChar c = false) :
    kind? (text ++ rest) = some statement.kind := by
  obtain ⟨tokens, htokens, hrun⟩ := Check.bind_eq_ok.mp h
  obtain ⟨⟨result, left⟩, hstatement, rfl⟩ := Check.map_eq_ok.mp (Check.orFail_eq_ok.mp hrun)
  have hscanned := Lexer.scanned_of_scan htokens
  have hkind : Announces (Lexer.lexemesOf tokens) result.kind := by
    have hall := Parser.announced_statement tokens result left hstatement
    rw [hscanned.map_lexeme] at hall
    exact announces_of_concat hall
  obtain ⟨front, back, heq, hfront, hback⟩ := Text.exists_blanks_trim text
  have hend : ∀ c ∈ (back ++ rest).head?, Text.isWordChar c = false := by
    cases back with
    | nil => exact hrest
    | cons c back =>
      rintro _ ⟨⟩
      exact not_isWordChar_of_isBlank (hback c List.mem_cons_self)
  rw [heq, List.append_assoc, List.append_assoc, kind?_blanks hfront]
  exact kind?_of_announces hscanned.written hkind hend

theorem kind?_of_parse_self (h : parse text = .ok statement) : kind? text = some statement.kind := by
  have hnothing : ∀ c ∈ ([] : Text).head?, Text.isWordChar c = false := nofun
  rw [← List.append_nil text, kind?_of_parse h hnothing]

theorem not_isWordChar_semicolon : Text.isWordChar (.char ';') = false := by decide

/-- A piece of a text begins with the first character of the text, unless that is a semicolon. -/
theorem head?_of_pieces {c : CodePoint} {cs : Text} (hc : c ≠ .char ';') (h : pieces none (c :: cs) = piece :: more) :
    ∃ tail, piece = c :: tail := by
  rw [pieces, if_neg hc, extend_pieces] at h
  obtain ⟨first, others, heq⟩ := List.exists_cons_of_ne_nil (pieces_ne_nil (if isQuote c then some c else none) cs)
  rw [heq] at h
  cases h
  exact ⟨first, rfl⟩

/-- A text whose first character is neither blank nor a semicolon begins with its first statement, behind which no
word goes on. -/
theorem exists_rest_of_statements (hblank : ∀ c ∈ text.head?, Text.isBlank c = false)
    (hsemicolon : text.head? ≠ some (.char ';')) (h : statements text = first :: more) :
    ∃ rest, text = first ++ rest ∧ ∀ c ∈ rest.head?, Text.isWordChar c = false := by
  cases text with
  | nil => cases h
  | cons c cs =>
    have hc : Text.isBlank c = false := hblank c rfl
    obtain ⟨piece, others, heq⟩ := List.exists_cons_of_ne_nil (pieces_ne_nil none (c :: cs))
    obtain ⟨behind, htext, hbehind⟩ := pieces_prefix heq
    obtain ⟨tail, rfl⟩ := head?_of_pieces (fun hcut => hsemicolon (congrArg some hcut)) heq
    obtain ⟨front, back, hpiece, hfront, hback⟩ := Text.exists_blanks_trim (c :: tail)
    obtain rfl : front = [] := by
      cases front with
      | nil => rfl
      | cons d front =>
        obtain rfl := (List.cons.inj hpiece).1
        rw [hfront c List.mem_cons_self] at hc
        cases hc
    rw [List.nil_append] at hpiece
    have hne : Text.trim (c :: tail) ≠ [] := by
      intro hnil
      rw [hnil, List.nil_append] at hpiece
      rw [hback c (hpiece ▸ List.mem_cons_self)] at hc
      cases hc
    obtain rfl : Text.trim (c :: tail) = first := by
      rw [statements, heq, List.map_cons, List.filter_cons_of_pos (by simpa using hne)] at h
      exact (List.cons.inj h).1
    refine ⟨back ++ behind, by rw [htext, ← List.append_assoc, ← hpiece], ?_⟩
    cases back with
    | nil =>
      intro d hd
      rw [hbehind d hd]
      exact not_isWordChar_semicolon
    | cons d back =>
      rintro _ ⟨⟩
      exact not_isWordChar_of_isBlank (hback d List.mem_cons_self)

theorem kind?_semicolon (h : text.head? = some (.char ';')) : kind? text = none := by
  obtain ⟨rest, rfl⟩ := List.head?_eq_some_iff.mp h
  rfl

/-- What a text announces if its first statement is one: the kind of this statement, or nothing behind a semicolon. -/
theorem kind?_of_statements (hblank : ∀ c ∈ text.head?, Text.isBlank c = false) (h : statements text = first :: more)
    (hfirst : parse first = .ok statement) :
    kind? text = if text.head? = some (.char ';') then none else some statement.kind := by
  split
  · next hsemicolon => exact kind?_semicolon hsemicolon
  · next hsemicolon =>
    obtain ⟨rest, rfl, hrest⟩ := exists_rest_of_statements hblank hsemicolon h
    exact kind?_of_parse hfirst hrest

end SourceText

/-! ## The ways to run a text -/

namespace Database

def runBatch (database : Database) (text : Text) : Except Failure Outcome := do
  let statements ← (SourceText.statements text).mapM parse
  let definitions ← orFail (onlyDefinitions statements)
  orFail (database.createTables definitions)

def runAlone (database : Database) (limit : Int) (text : Text) : Except Failure Outcome := do
  database.run limit (← parse text)

/-- A text with something in it that is no comment and no blank is run in one of two ways. -/
theorem execute_eq (database : Database) (limit : Int) {sql text : Text}
    (htext : text = Text.trim (SourceText.withoutComments sql)) (hne : text ≠ []) :
    database.execute limit sql =
      if SourceText.kind? text = some .createTable then database.runBatch text else database.runAlone limit text := by
  rw [execute, runText, ← htext, if_neg (by simpa using hne)]
  rfl

end Database

/-- Every text that is a statement has the kind of the statement by its first words. So a text is run as a batch
exactly if its first statement, provided that it is one, defines a table and no semicolon stands in front. -/
theorem first_words_route :
    (∀ text statement, parse text = .ok statement → SourceText.kind? text = some statement.kind) ∧
    ∀ sql text first more statement, text = Text.trim (SourceText.withoutComments sql) →
      SourceText.statements text = first :: more → parse first = .ok statement →
        (SourceText.kind? text = some .createTable ↔
          statement.kind = .createTable ∧ text.head? ≠ some (.char ';')) ∧
        ∀ (database : Database) (limit : Int), database.execute limit sql =
          if SourceText.kind? text = some .createTable then database.runBatch text
          else database.runAlone limit text := by
  refine ⟨fun text statement h => ?_, fun sql text first more statement htext h hfirst => ⟨?_, ?_⟩⟩
  · exact SourceText.kind?_of_parse_self h
  · rw [SourceText.kind?_of_statements (htext ▸ Text.isBlank_head?_trim _) h hfirst]
    split
    · next hsemicolon => simp [hsemicolon]
    · next hsemicolon => simp [hsemicolon]
  · have hne : text ≠ [] := by
      rintro rfl
      cases h
    exact fun database limit => database.execute_eq limit htext hne

theorem first_words_route_team : ∃ statement, parse "create\ttable team (id int)" = .ok statement ∧
    SourceText.kind? "create\ttable team (id int)" = some statement.kind ∧
    ∀ (database : Database) (limit : Int), database.execute limit "/* the teams */ create\ttable team (id int);" =
      database.runBatch "create\ttable team (id int);" := by
  have hok : (parse "create\ttable team (id int)").isOk = true := by decide +kernel
  obtain ⟨statement, hparse⟩ := Check.exists_of_isOk hok
  obtain ⟨hkinds, hroutes⟩ := first_words_route
  obtain ⟨-, hexecute⟩ := hroutes "/* the teams */ create\ttable team (id int);" "create\ttable team (id int);"
    "create\ttable team (id int)" [] statement (by decide +kernel) (by decide +kernel) hparse
  refine ⟨statement, hparse, hkinds _ _ hparse, fun database limit => ?_⟩
  rw [hexecute, if_pos (by decide +kernel)]

/-- A semicolon in front of a definition keeps it from being run as a batch. -/
theorem not_every_definition_batched : ¬ ∀ sql text first more statement,
    text = Text.trim (SourceText.withoutComments sql) → SourceText.statements text = first :: more →
      parse first = .ok statement → statement.kind = .createTable →
        ∀ (database : Database) (limit : Int), database.execute limit sql = database.runBatch text := by
  intro hall
  have hok : (parse "CREATE TABLE t (id INT PRIMARY KEY)").isOk = true := by decide +kernel
  obtain ⟨statement, hparse⟩ := Check.exists_of_isOk hok
  have hkind : SourceText.kind? "CREATE TABLE t (id INT PRIMARY KEY)" = some .createTable := by decide +kernel
  have hcreate : statement.kind = .createTable := by
    rw [SourceText.kind?_of_parse_self hparse] at hkind
    exact Option.some.inj hkind
  have hsame := hall ";CREATE TABLE t (id INT PRIMARY KEY)" ";CREATE TABLE t (id INT PRIMARY KEY)"
    "CREATE TABLE t (id INT PRIMARY KEY)" [] statement (by decide +kernel) (by decide +kernel) hparse hcreate .empty 64
  have hrefused : (Database.empty.execute 64 ";CREATE TABLE t (id INT PRIMARY KEY)").isOk = false := by decide +kernel
  have hcreated : (Database.empty.runBatch ";CREATE TABLE t (id INT PRIMARY KEY)").isOk = true := by decide +kernel
  rw [hsame, hcreated] at hrefused
  cases hrefused

end SnapshotSql
