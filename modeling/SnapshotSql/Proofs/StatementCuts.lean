import SnapshotSql.Proofs.LongestLexemes
import SnapshotSql.SourceText
import Mathlib.Data.List.DropRight
import Mathlib.Data.List.Forall2

/-! # Cuts between statements

A text is cut at the semicolons outside quotes, before anything is known about its lexemes, and the pieces are
trimmed. Where the whole text has tokens, the cuts are at the signs among them: each piece has the tokens between
two such signs. Quotes that are doubled inside a quoted text do not matter, and neither does what a lexeme in
front of a semicolon might have become without it.
-/
namespace SnapshotSql

namespace SourceText

open Lexer (Begins Written)

variable {c quote : CodePoint} {text text' rest piece : Text} {lexeme : Lexeme} {lexemes segment : List Lexeme}

/-! ## Texts without a cut -/

theorem pieces_ne_nil (quote : Option CodePoint) (text : Text) : pieces quote text ≠ [] := by
  have hextend : ∀ c found, pieces.extend c found ≠ [] := by
    intro c found
    cases found <;> exact List.cons_ne_nil _ _
  cases text with
  | nil => exact List.cons_ne_nil _ _
  | cons c text =>
    cases quote with
    | none =>
      rw [pieces]
      split
      · exact List.cons_ne_nil _ _
      · exact hextend _ _
    | some quote => exact hextend _ _

theorem extend_pieces (c : CodePoint) (quote : Option CodePoint) (text : Text) :
    pieces.extend c (pieces quote text) = (pieces quote text).modifyHead (c :: ·) := by
  obtain ⟨piece, more, heq⟩ := List.exists_cons_of_ne_nil (pieces_ne_nil quote text)
  rw [heq]
  rfl

/-- No cut is made in the text, and what stands behind it is cut as if it began there. -/
def Uncut (text : Text) : Prop :=
  ∀ rest, pieces none (text ++ rest) = (pieces none rest).modifyHead (text ++ ·)

theorem uncut_nil : Uncut [] := by
  intro rest
  obtain ⟨piece, more, heq⟩ := List.exists_cons_of_ne_nil (pieces_ne_nil none rest)
  rw [List.nil_append, heq]
  rfl

theorem Uncut.append (h : Uncut text) (h' : Uncut text') : Uncut (text ++ text') := by
  intro rest
  rw [List.append_assoc, h, h', List.modifyHead_modifyHead]
  simp [Function.comp_def]

def cutters : Text :=
  [.char ';', .char '\'', .char '"']

theorem uncut_char (hc : c ∉ cutters) : Uncut [c] := by
  intro rest
  simp only [cutters, List.mem_cons, List.not_mem_nil, or_false, not_or] at hc
  have hquote : isQuote c = false := by simp [isQuote, hc.2]
  rw [List.singleton_append, pieces, if_neg hc.1, hquote, if_neg Bool.false_ne_true, extend_pieces]
  rfl

theorem uncut_of_forall (h : ∀ c ∈ text, c ∉ cutters) : Uncut text := by
  induction text with
  | nil => exact uncut_nil
  | cons c text ih =>
    obtain ⟨hc, htext⟩ := List.forall_mem_cons.mp h
    exact (uncut_char hc).append (ih htext)

/-- Inside a quoted text the first quote of a pair ends it and the second begins another one. -/
theorem pieces_doubled (hquote : isQuote quote = true) (value rest : Text) :
    pieces (some quote) (Text.doubled quote value ++ quote :: rest) =
      (pieces none rest).modifyHead ((Text.doubled quote value ++ [quote]) ++ ·) := by
  have hcutter : quote ≠ .char ';' := by
    rintro rfl
    cases hquote
  obtain ⟨piece, more, heq⟩ := List.exists_cons_of_ne_nil (pieces_ne_nil none rest)
  rw [heq]
  induction value with
  | nil =>
    rw [Text.doubled, List.flatMap_nil, List.nil_append, pieces, if_pos rfl, heq]
    rfl
  | cons c value ih =>
    by_cases hc : c = quote
    · rw [hc, Text.doubled_cons_self, List.cons_append, List.cons_append, pieces, if_pos rfl, pieces,
        if_neg hcutter, if_pos hquote, ih]
      rfl
    · rw [Text.doubled_cons_ne hc, List.cons_append, pieces, if_neg hc, ih]
      rfl

theorem uncut_quoted (hquote : isQuote quote = true) (value : Text) :
    Uncut (quote :: (Text.doubled quote value ++ [quote])) := by
  intro rest
  have hcutter : quote ≠ .char ';' := by
    rintro rfl
    cases hquote
  rw [List.cons_append, List.append_assoc, List.singleton_append, pieces, if_neg hcutter, if_pos hquote,
    extend_pieces, pieces_doubled hquote, List.modifyHead_modifyHead]
  rfl

/-! ## Lexemes -/

theorem not_mem_cutters_of_isWordChar (h : Text.isWordChar c = true) : c ∉ cutters := by
  have hcutters : ∀ c ∈ cutters, Text.isWordChar c = false := by decide +kernel
  intro hc
  rw [hcutters c hc] at h
  cases h

theorem not_mem_cutters_of_isDecimal (h : Text.isDecimal c = true) : c ∉ cutters :=
  not_mem_cutters_of_isWordChar (Text.isWordChar_of_isDigit (Text.isDigit_of_isDecimal h))

/-- Of all lexemes only the semicolon is cut at. -/
theorem uncut_of_begins {spelling : Text} (h : Begins spelling lexeme rest) (hne : lexeme ≠ .symbol .semicolon) :
    Uncut spelling := by
  cases h with
  | quoted hquote _ => exact uncut_quoted (by simpa [isQuote] using hquote) _
  | numeral hmantissa hexponent _ _ =>
    apply Uncut.append
    · apply uncut_of_forall
      intro c hc
      obtain hdecimal | rfl := hmantissa.isDecimal hc
      · exact not_mem_cutters_of_isDecimal hdecimal
      · decide
    · have hsigns : ∀ c ∈ Text.ofString "eE+-", c ∉ cutters := by decide
      apply uncut_of_forall
      intro c hc
      obtain hdecimal | hsign := hexponent.isDecimal hc
      · exact not_mem_cutters_of_isDecimal hdecimal
      · exact hsigns c hsign
  | word hword _ =>
    apply uncut_of_forall
    intro c hc
    obtain hchar | rfl := hword.isWordChar hc
    · exact not_mem_cutters_of_isWordChar hchar
    · decide
  | @sign symbol _ _ =>
    apply uncut_of_forall
    cases symbol with
    | semicolon => exact absurd rfl hne
    | _ => decide

/-! ## The lexemes of the pieces -/

/-- The first piece begins the text, and what follows it there, if anything does, is a semicolon. -/
theorem pieces_prefix {quote : Option CodePoint} {more : List Text} (h : pieces quote text = piece :: more) :
    ∃ rest, text = piece ++ rest ∧ ∀ c ∈ rest.head?, c = .char ';' := by
  induction text generalizing quote piece more with
  | nil =>
    cases h
    exact ⟨[], rfl, nofun⟩
  | cons c text ih =>
    have hextend : ∀ {quote : Option CodePoint}, pieces.extend c (pieces quote text) = piece :: more →
        ∃ rest, c :: text = piece ++ rest ∧ ∀ c ∈ rest.head?, c = .char ';' := by
      intro quote h
      obtain ⟨first, others, heq⟩ := List.exists_cons_of_ne_nil (pieces_ne_nil quote text)
      obtain ⟨rest, rfl, hrest⟩ := ih heq
      rw [heq] at h
      cases h
      exact ⟨rest, rfl, hrest⟩
    cases quote with
    | none =>
      rw [pieces] at h
      split at h
      · next hcut =>
        cases h
        exact ⟨_, rfl, by rintro _ ⟨⟩; exact hcut⟩
      · exact hextend h
    | some quote => exact hextend h

/-- Lists that are related stay so if their heads do. -/
theorem forall₂_modifyHead {α β : Type} {R : α → β → Prop} {f : α → α} {g : β → β} {xs : List α} {ys : List β}
    (h : List.Forall₂ R xs ys) (hhead : ∀ x ∈ xs.head?, ∀ y, R x y → R (f x) (g y)) :
    List.Forall₂ R (xs.modifyHead f) (ys.modifyHead g) := by
  cases h with
  | nil => exact .nil
  | cons hxy hmore => exact .cons (hhead _ rfl _ hxy) hmore

/-- Each piece has the lexemes between two semicolons. -/
theorem written_pieces (h : Written text lexemes) :
    List.Forall₂ Written (pieces none text) (lexemes.splitOn (.symbol .semicolon)) := by
  induction h with
  | nil => exact .cons .nil .nil
  | @blank c text lexemes hblank _ ih =>
    have hcutter : c ∉ cutters := by
      intro hmem
      have hvisible : ∀ c ∈ cutters, Text.isBlank c = false := by decide
      rw [hvisible c hmem] at hblank
      cases hblank
    have hmodified := forall₂_modifyHead (g := id) ih fun piece _ segment h => .blank hblank h
    rw [List.modifyHead_id] at hmodified
    rwa [← List.singleton_append, uncut_char hcutter]
  | @lexeme spelling text lexeme lexemes hsolid htaken _ ih =>
    have hbegins := Lexer.begins_of_taken htaken
    rw [List.splitOn_cons_eq_if_modifyHead]
    by_cases hsemicolon : lexeme = .symbol .semicolon
    · subst hsemicolon
      rw [hbegins.eq_text, if_pos (beq_self_eq_true _)]
      exact .cons .nil ih
    · rw [uncut_of_begins hbegins hsemicolon, if_neg (by simpa using hsemicolon)]
      apply forall₂_modifyHead ih
      intro piece hpiece segment hwritten
      obtain ⟨more, heq⟩ := List.head?_eq_some_iff.mp hpiece
      obtain ⟨rest, htext, -⟩ := pieces_prefix heq
      rw [htext] at hbegins
      have hcut := hbegins.cut Lexer.boundary_nil
      rw [List.append_nil] at hcut
      exact .lexeme hsolid hcut.takeLexeme hwritten

/-! ## Trimmed pieces -/

theorem written_tail (hblank : Text.isBlank c = true) (h : Written (c :: text) lexemes) : Written text lexemes := by
  generalize htext : c :: text = whole at h
  cases h with
  | nil => cases htext
  | blank _ h =>
    cases htext
    exact h
  | @lexeme spelling rest lexeme _ hsolid _ _ =>
    obtain ⟨d, ds, rfl⟩ := List.exists_cons_of_ne_nil hsolid.ne_nil
    cases htext
    rw [hsolid.head c rfl] at hblank
    cases hblank

theorem written_front (hblank : Text.isBlank c = true) (h : Written (text ++ [c]) lexemes) :
    Written text lexemes := by
  generalize hwhole : text ++ [c] = whole at h
  induction h generalizing text with
  | nil => simp at hwhole
  | @blank d rest lexemes hd h ih =>
    cases text with
    | nil =>
      cases hwhole
      exact h
    | cons e text =>
      cases hwhole
      exact .blank hd (ih rfl)
  | @lexeme spelling rest lexeme lexemes hsolid htaken h ih =>
    rcases List.eq_nil_or_concat rest with rfl | ⟨front, d, rfl⟩
    · -- A spelling does not end with a blank.
      rw [List.append_nil] at hwhole
      have hlast := hsolid.last c (by rw [← hwhole]; exact List.getLast?_concat)
      rw [hlast] at hblank
      cases hblank
    · rw [List.concat_eq_append, ← List.append_assoc] at hwhole
      obtain ⟨rfl, hd⟩ := List.append_inj' hwhole rfl
      cases hd
      rw [List.concat_eq_append] at htaken ih
      have hcut := (Lexer.begins_of_taken htaken).cut Lexer.boundary_nil
      rw [List.append_nil] at hcut
      exact .lexeme hsolid hcut.takeLexeme (ih rfl)

theorem written_dropWhile (h : Written text lexemes) : Written (text.dropWhile Text.isBlank) lexemes := by
  induction text with
  | nil => exact h
  | cons c text ih =>
    rw [List.dropWhile_cons]
    split
    · next hblank => exact ih (written_tail hblank h)
    · exact h

theorem written_rdropWhile (h : Written text lexemes) : Written (text.rdropWhile Text.isBlank) lexemes := by
  induction text using List.reverseRecOn with
  | nil => exact h
  | append_singleton text c ih =>
    rw [List.rdropWhile_concat]
    split
    · next hblank => exact ih (written_front hblank h)
    · exact h

/-- Trimming a text leaves its lexemes. -/
theorem written_trim (h : Written text lexemes) : Written (Text.trim text) lexemes :=
  written_rdropWhile (written_dropWhile h)

theorem trim_eq_nil_iff (h : Written text lexemes) : Text.trim text = [] ↔ lexemes = [] := by
  constructor
  · intro hnil
    have htrim := written_trim h
    rw [hnil] at htrim
    generalize hempty : ([] : Text) = empty at htrim
    cases htrim with
    | nil => rfl
    | blank _ _ => cases hempty
    | lexeme hsolid _ _ => exact absurd (List.append_eq_nil_iff.mp hempty.symm).1 hsolid.ne_nil
  · rintro rfl
    have hblank : ∀ c ∈ text, Text.isBlank c = true := by
      generalize hempty : ([] : List Lexeme) = empty at h
      induction h with
      | nil => exact List.forall_mem_nil _
      | blank hblank _ ih => exact List.forall_mem_cons.mpr ⟨hblank, ih hempty⟩
      | lexeme _ _ _ _ => cases hempty
    rw [Text.trim, Text.trimWhere, List.dropWhile_eq_nil_iff.mpr hblank]
    rfl

/-- The statements of a text that has tokens have the tokens between the semicolons, as far as there are any. -/
theorem written_statements (h : Written text lexemes) :
    List.Forall₂ Written (statements text) ((lexemes.splitOn (.symbol .semicolon)).filter (· ≠ [])) := by
  have hfilter : ((fun piece : Text => !piece.isEmpty) ∘ Text.trim) = fun piece => decide (Text.trim piece ≠ []) := by
    funext piece
    rw [Function.comp_apply, Bool.eq_iff_iff]
    simp
  rw [statements, List.filter_map, hfilter, List.forall₂_map_left_iff]
  have hkept : ∀ piece segment, Written piece segment →
      (decide (Text.trim piece ≠ []) = true ↔ decide (segment ≠ []) = true) := by
    intro piece segment hwritten
    rw [decide_eq_true_iff, decide_eq_true_iff, ne_eq, ne_eq, trim_eq_nil_iff hwritten]
  apply (List.rel_filter hkept (written_pieces h)).imp
  exact fun piece segment => written_trim

end SourceText

open Lexer (Written lexemesOf)

/-- Texts in which lexemes are written have tokens one by one. -/
theorem mapM_tokenize {texts : List Text} {segments : List (List Lexeme)} (h : List.Forall₂ Written texts segments) :
    ∃ cuts, texts.mapM tokenize = .ok cuts ∧ cuts.map lexemesOf = segments := by
  induction h with
  | nil => exact ⟨[], rfl, rfl⟩
  | cons hpiece _ ih =>
    obtain ⟨cut, hcut, hlexemes⟩ := hpiece.tokenize
    obtain ⟨cuts, hcuts, hmore⟩ := ih
    refine ⟨cut :: cuts, ?_, by rw [List.map_cons, hlexemes, hmore]⟩
    rw [List.mapM_cons, hcut, hcuts]
    rfl

/-- Wherever a text has tokens, cutting it at its semicolons is cutting its tokens at theirs: the statements have
tokens, and these are the ones between the semicolons, in the same order and without empty segments. -/
theorem tokens_statements {text : Text} {tokens : List Token} (h : tokenize text = .ok tokens) :
    ∃ cuts, (SourceText.statements text).mapM tokenize = .ok cuts ∧
      cuts.map lexemesOf = ((lexemesOf tokens).splitOn (.symbol .semicolon)).filter (· ≠ []) := by
  have hwritten := (Lexer.scanned_of_scan h).written
  exact mapM_tokenize (SourceText.written_statements hwritten)

/-- Two statements, the first of which has a semicolon and a doubled quote in a quoted text. -/
theorem tokens_statements_quoted :
    ∃ cuts, (SourceText.statements "a ';''' ;; 15;").mapM tokenize = .ok cuts ∧
      cuts.map lexemesOf = [[.name "a", .text ";'"], [.number (.int 15)]] := by
  have hlexemes : (tokenize "a ';''' ;; 15;").toOption.map lexemesOf =
      some [.name "a", .text ";'", .symbol .semicolon, .symbol .semicolon, .number (.int 15), .symbol .semicolon] := by
    decide +kernel
  cases h : tokenize "a ';''' ;; 15;" with
  | error failure =>
    rw [h] at hlexemes
    cases hlexemes
  | ok tokens =>
    rw [h] at hlexemes
    obtain ⟨cuts, hcuts, hcut⟩ := tokens_statements h
    rw [Option.some.inj hlexemes] at hcut
    exact ⟨cuts, hcuts, hcut⟩

end SnapshotSql
