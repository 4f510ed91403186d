import SnapshotSql.Proofs.ReadLexemes
import SnapshotSql.Proofs.SpelledNumbers
import Mathlib.Data.List.Basic

/-! # Texts that are laid out

A text may hold lexemes close together, such as a name in front of a comma, with blanks between them where
someone has put blanks. A text lays out some lexemes if the lexer finds just them in it, whatever stands behind
a boundary there. Layouts are put together from the left: a word needs a boundary behind it, a sign does not.
-/
namespace SnapshotSql

namespace Lexer

/-- The lexer finds the lexemes in the text one after the other, between blanks. -/
inductive Written : Text → List Lexeme → Prop
  | nil : Written [] []
  | blank {c : CodePoint} {text : Text} {lexemes : List Lexeme} (hblank : Text.isBlank c = true)
      (h : Written text lexemes) : Written (c :: text) lexemes
  | lexeme {spelling text : Text} {lexeme : Lexeme} {lexemes : List Lexeme} (hsolid : Text.Solid spelling)
      (htaken : takeLexeme (spelling ++ text) = .ok (lexeme, spelling.length)) (h : Written text lexemes) :
      Written (spelling ++ text) (lexeme :: lexemes)

variable {c : CodePoint} {text text' rest : Text} {lexeme : Lexeme} {lexemes lexemes' : List Lexeme}

/-- The tokens of a text are the lexemes written in it and the end of the input. -/
theorem scan_written (h : Written text lexemes) (position : Nat) :
    ∃ tokens, scan position 0 text = .ok tokens ∧ tokens.map (·.lexeme) = lexemes ++ [.endOfInput] := by
  induction h generalizing position with
  | nil => exact ⟨_, rfl, rfl⟩
  | blank hblank _ ih =>
    obtain ⟨tokens, hscan, htokens⟩ := ih (position + 1)
    exact ⟨tokens, by rw [scan, if_pos hblank, hscan], htokens⟩
  | @lexeme spelling text lexeme lexemes hsolid htaken _ ih =>
    obtain ⟨tokens, hscan, htokens⟩ := ih (position + spelling.length)
    have hfirst := scan_lexeme position hsolid htaken
    rw [hscan] at hfirst
    exact ⟨_, hfirst, by rw [List.map_cons, htokens, List.cons_append]⟩

/-- The text holds the lexemes, whatever is written behind the boundary after it. -/
def Lays (text : Text) (lexemes : List Lexeme) : Prop :=
  ∀ rest more, Boundary rest → Written rest more → Written (text ++ rest) (lexemes ++ more)

theorem boundary_append (h : Boundary text) (hrest : Boundary rest) : Boundary (text ++ rest) := by
  cases text with
  | nil => exact hrest
  | cons c cs => exact boundary_cons (h c rfl)

theorem boundary_nil : Boundary [] :=
  nofun

theorem Lays.written (h : Lays text lexemes) : Written text lexemes := by
  simpa using h [] [] boundary_nil .nil

theorem lays_nil : Lays [] [] :=
  fun _ _ _ h => h

/-- One layout in front of another. -/
theorem Lays.append (h : Lays text lexemes) (hboundary : Boundary text') (h' : Lays text' lexemes') :
    Lays (text ++ text') (lexemes ++ lexemes') := by
  intro rest more hrest hmore
  rw [List.append_assoc, List.append_assoc]
  exact h _ _ (boundary_append hboundary hrest) (h' rest more hrest hmore)

theorem Lays.blank (hblank : Text.isBlank c = true) (h : Lays text lexemes) : Lays (c :: text) lexemes :=
  fun rest more hrest hmore => .blank hblank (h rest more hrest hmore)

theorem Lays.space (h : Lays text lexemes) : Lays (.char ' ' :: text) lexemes :=
  h.blank (by decide)

/-! ## Single lexemes -/

theorem lays_spelling (h : lexeme.Spelled) : Lays lexeme.spelling [lexeme] :=
  fun rest _ hrest hmore => .lexeme h.solid (h.taken rest hrest) hmore

theorem IsWord.lays (h : IsWord text) : Lays text [.ofWord text] :=
  fun _ _ hrest hmore => .lexeme h.solid (takeLexeme_of_isWord h (takeWord_of_boundary hrest)) hmore

/-- The signs of one character that no longer sign begins with. -/
def shortSigns : List Symbol :=
  [.openParen, .closeParen, .comma, .semicolon, .minus]

/-- Anything may stand behind such a sign. -/
theorem Lays.sign {symbol : Symbol} (hsymbol : symbol ∈ shortSigns) (h : Lays text lexemes) :
    Lays (symbol.text ++ text) (.symbol symbol :: lexemes) := by
  intro rest more hrest hmore
  have htaken : takeLexeme (symbol.text ++ (text ++ rest)) = .ok (.symbol symbol, symbol.text.length) := by
    simp only [shortSigns, List.mem_cons, List.not_mem_nil, or_false] at hsymbol
    obtain rfl | rfl | rfl | rfl | rfl := hsymbol <;> rfl
  rw [List.append_assoc]
  exact .lexeme (spelled_symbol symbol).solid htaken (h rest more hrest hmore)

/-- A layout in parentheses, with another behind it. -/
theorem Lays.enclose (h : Lays text lexemes) (h' : Lays text' lexemes') :
    Lays (.char '(' :: (text ++ .char ')' :: text'))
      (.symbol .openParen :: (lexemes ++ .symbol .closeParen :: lexemes')) := by
  have hclose := h'.sign (show Symbol.closeParen ∈ shortSigns by decide)
  have hinner := h.append (boundary_cons (by decide)) hclose
  exact hinner.sign (show Symbol.openParen ∈ shortSigns by decide)

/-- A text in quotes of either kind, with the quote doubled inside. -/
theorem lays_quoted {quote : CodePoint} (hquote : quote = .char '\'' ∨ quote = .char '"') (value : Text) :
    Lays (quote :: (Text.doubled quote value ++ [quote])) [.text value] := by
  intro rest more hrest hmore
  have hother : rest.head? ≠ some quote := by
    intro heq
    have hstop := hrest quote heq
    obtain rfl | rfl := hquote <;> revert hstop <;> decide
  exact .lexeme (solid_quoted hquote value) (takeLexeme_quoted hquote value hother) hmore

/-! ## Several items -/

theorem Lays.gap {gap : Text} (hgap : ∀ c ∈ gap, Text.isBlank c = true) (h : Lays text lexemes) :
    Lays (gap ++ text) lexemes := by
  induction gap with
  | nil => exact h
  | cons c gap ih =>
    obtain ⟨hc, hgap⟩ := List.forall_mem_cons.mp hgap
    exact (ih hgap).blank hc

/-- Items with a comma and blanks between them. -/
theorem lays_separated {α : Type} {textOf : α → Text} {lexemesOf : α → List Lexeme} {gap : Text}
    (hgap : ∀ c ∈ gap, Text.isBlank c = true) {items : List α}
    (hitems : ∀ item ∈ items, Lays (textOf item) (lexemesOf item)) :
    Lays (List.intercalate (.char ',' :: gap) (items.map textOf)) (separated lexemesOf items) := by
  induction items with
  | nil => exact lays_nil
  | cons item items ih =>
    obtain ⟨hitem, hrest⟩ := List.forall_mem_cons.mp hitems
    cases items with
    | nil => simpa [separated] using hitem
    | cons other items =>
      have hcomma : Lays (.char ',' :: (gap ++ List.intercalate (.char ',' :: gap) ((other :: items).map textOf)))
          (.symbol .comma :: separated lexemesOf (other :: items)) :=
        ((ih hrest).gap hgap).sign (show Symbol.comma ∈ shortSigns by decide)
      simpa [separated, List.intercalate_cons_cons] using hitem.append (boundary_cons (by decide)) hcomma

/-- Words with spaces between them. -/
theorem lays_words {words : List String} (hwords : ∀ word ∈ words, IsCapital word) :
    Lays (List.intercalate [.char ' '] (words.map Text.ofString))
      (words.map fun word => .ofWord (Text.ofString word)) := by
  induction words with
  | nil => exact lays_nil
  | cons word words ih =>
    obtain ⟨hword, hrest⟩ := List.forall_mem_cons.mp hwords
    cases words with
    | nil => simpa using hword.isWord.lays
    | cons other words =>
      have hmore := hword.isWord.lays.append (boundary_cons (by decide)) (ih hrest).space
      simpa [List.intercalate_cons_cons] using hmore

theorem lays_name {name : Text} (h : IsName name) : Lays name [.name name] := by
  have hlays := h.1.lays
  rwa [h.2] at hlays

/-- Names with commas and spaces between them. -/
theorem lays_names {names : List Text} (hnames : ∀ name ∈ names, IsName name) :
    Lays (List.intercalate (Text.ofString ", ") names) (separated (fun name => [.name name]) names) := by
  have hspace : ∀ c ∈ Text.ofString " ", Text.isBlank c = true := by decide
  have hlays := lays_separated hspace fun name hname => lays_name (hnames name hname)
  rwa [List.map_id'] at hlays

end Lexer

/-- A text is read as a statement if its lexemes are. -/
theorem parse_of_scan {text : Text} {lexemes : List Lexeme} {statement : Statement} {tokens : List Token}
    (hsolid : Text.Solid text) (hscan : Lexer.scan 0 0 text = .ok tokens)
    (htokens : tokens.map (·.lexeme) = lexemes ++ [.endOfInput])
    (h : Parser.Parses Parser.statement lexemes statement (· = [.endOfInput])) : parse text = .ok statement := by
  obtain ⟨front, back, rfl, hfront, hback⟩ := List.map_eq_append_iff.mp htokens
  have hrun := h front back hfront hback
  rw [parse, hsolid.trim, tokenize, hscan]
  change orFail (Prod.fst <$> Parser.statement (front ++ back)) = _
  rw [hrun]
  rfl

theorem parse_of_lays {text : Text} {lexemes : List Lexeme} {statement : Statement} (hsolid : Text.Solid text)
    (hlays : Lexer.Lays text lexemes)
    (h : Parser.Parses Parser.statement lexemes statement (· = [.endOfInput])) : parse text = .ok statement := by
  obtain ⟨tokens, hscan, htokens⟩ := Lexer.scan_written hlays.written 0
  exact parse_of_scan hsolid hscan htokens h

/-- A text is not read if its lexemes are not. -/
theorem parse_ne_ok_of_lays {text : Text} {lexemes : List Lexeme} (hsolid : Text.Solid text)
    (hlays : Lexer.Lays text lexemes) (h : Parser.Refuses Parser.statement (lexemes ++ [.endOfInput]))
    (statement : Statement) : parse text ≠ .ok statement := by
  intro hread
  obtain ⟨tokens, hscan, htokens⟩ := Lexer.scan_written hlays.written 0
  rw [parse, hsolid.trim, tokenize, hscan] at hread
  obtain ⟨step, hrun, -⟩ := Check.map_eq_ok.mp (Check.orFail_eq_ok.mp hread)
  exact h tokens htokens step hrun

end SnapshotSql
