import SnapshotSql.Proofs.LongestLexemes
import Mathlib.Data.List.DropRight

/-! # Slices of a text between its tokens

From the position of a token to that of the next one a text holds the spelling of the token and blanks. So the
positions rise, the end of the input stands at the end of the text, and nothing but blanks is left out. The
spellings alone are enough: with a space between any two of them they have the lexemes of the whole text.
-/
namespace SnapshotSql

/-- The parts of a text from each token to the next one, without the blanks at their ends. -/
def slices (text : Text) (tokens : List Token) : List Text :=
  List.zipWith (fun token next => ((text.take next.position).drop token.position).rdropWhile Text.isBlank)
    tokens tokens.tail

namespace Lexer

variable {text spelling gap : Text} {lexeme : Lexeme} {lexemes : List Lexeme} {position : Nat} {tokens : List Token}

/-- In front of the first token stand only blanks. -/
theorem Scanned.exists_gap (h : Scanned position text tokens) :
    ∃ gap first more, tokens = first :: more ∧ (∀ c ∈ gap, Text.isBlank c = true) ∧ text = gap ++ first.rest ∧
      first.position = position + gap.length := by
  induction h with
  | done position => exact ⟨[], _, [], rfl, List.forall_mem_nil _, rfl, rfl⟩
  | @blank position c text tokens hblank _ ih =>
    obtain ⟨gap, first, more, rfl, hgap, rfl, hposition⟩ := ih
    refine ⟨c :: gap, first, more, rfl, List.forall_mem_cons.mpr ⟨hblank, hgap⟩, rfl, ?_⟩
    rw [hposition, List.length_cons]
    omega
  | lexeme _ _ _ => exact ⟨[], _, _, rfl, List.forall_mem_nil _, rfl, rfl⟩

theorem Scanned.le_position (h : Scanned position text tokens) : ∀ token ∈ tokens, position ≤ token.position := by
  induction h with
  | done position => exact List.forall_mem_singleton.mpr le_rfl
  | blank _ _ ih => exact fun token htoken => Nat.le_of_succ_le (ih token htoken)
  | lexeme _ _ ih =>
    exact List.forall_mem_cons.mpr ⟨le_rfl, fun token htoken => (Nat.le_add_right _ _).trans (ih token htoken)⟩

/-- A lexeme has at least one character, so the next one stands further behind. -/
theorem Scanned.pairwise (h : Scanned position text tokens) : tokens.Pairwise (·.position < ·.position) := by
  induction h with
  | done position => exact List.pairwise_singleton _ _
  | blank _ _ ih => exact ih
  | @lexeme position spelling text lexeme tokens hbegins h ih =>
    refine List.pairwise_cons.mpr ⟨fun token htoken => ?_, ih⟩
    have hpositive := List.length_pos_iff.mpr hbegins.solid.ne_nil
    have hle := h.le_position token htoken
    change position < token.position
    omega

theorem rdropWhile_gap (hsolid : Text.Solid spelling) (hgap : ∀ c ∈ gap, Text.isBlank c = true) :
    (spelling ++ gap).rdropWhile Text.isBlank = spelling := by
  have hlast : ∀ c ∈ spelling.reverse.head?, Text.isBlank c = false := by
    rw [List.head?_reverse]
    exact hsolid.last
  rw [List.rdropWhile, List.reverse_append, List.dropWhile_append_of_pos (by simpa using hgap),
    Text.dropWhile_isBlank hlast, List.reverse_reverse]

/-- A space takes the place of whatever stands behind a lexeme. -/
theorem written_spaced {spellings : List Text} (hbegins : Begins spelling lexeme text)
    (h : Written (List.intercalate [.char ' '] spellings) lexemes) :
    Written (List.intercalate [.char ' '] (spelling :: spellings)) (lexeme :: lexemes) := by
  have hcut {rest : Text} (hrest : Boundary rest) : Begins spelling lexeme rest := by
    rw [← List.nil_append text] at hbegins
    exact hbegins.cut hrest
  cases spellings with
  | nil =>
    have hlast := Written.lexeme hbegins.solid (hcut boundary_nil).takeLexeme h
    simpa using hlast
  | cons other spellings =>
    have hspace : Boundary (.char ' ' :: List.intercalate [.char ' '] (other :: spellings)) :=
      boundary_cons (by decide)
    have hfirst := Written.lexeme hbegins.solid (hcut hspace).takeLexeme (.blank (by decide) h)
    rwa [List.intercalate_cons_cons, List.append_assoc, List.singleton_append]

/-- The slices are the spellings of the lexemes. The text is looked at from its beginning, which lies in front of
what is still to be scanned. -/
theorem Scanned.written_slices (h : Scanned position text tokens) {front : Text} (hfront : front.length = position) :
    Written (List.intercalate [.char ' '] (slices (front ++ text) tokens)) (lexemesOf tokens) := by
  induction h generalizing front with
  | done position => exact .nil
  | @blank position c text tokens hblank _ ih =>
    rw [List.append_cons]
    exact ih (by rw [List.length_append, hfront]; rfl)
  | @lexeme position spelling text lexeme tokens hbegins h ih =>
    have hfront' : (front ++ spelling).length = position + spelling.length := by rw [List.length_append, hfront]
    have hmore := ih hfront'
    obtain ⟨gap, next, more, rfl, hgap, rfl, hposition⟩ := h.exists_gap
    have hslice : ((front ++ (spelling ++ (gap ++ next.rest))).take next.position).drop position = spelling ++ gap := by
      have hlength : next.position = (front ++ (spelling ++ gap)).length := by
        rw [hposition, ← hfront', List.length_append, List.length_append, List.length_append, Nat.add_assoc]
      have htext : front ++ (spelling ++ (gap ++ next.rest)) = front ++ (spelling ++ gap) ++ next.rest := by simp
      rw [htext, hlength, List.take_left, ← hfront, List.drop_left]
    have hslices : slices (front ++ (spelling ++ (gap ++ next.rest)))
        (⟨lexeme, position, spelling ++ (gap ++ next.rest)⟩ :: next :: more) =
          spelling :: slices (front ++ spelling ++ (gap ++ next.rest)) (next :: more) := by
      rw [slices, List.tail_cons, List.zipWith_cons_cons, hslice, rdropWhile_gap hbegins.solid hgap,
        List.append_assoc]
      rfl
    rw [hslices, lexemesOf_cons hbegins.ne_endOfInput]
    exact written_spaced hbegins hmore

end Lexer

/-- No character of a text is lost between its tokens, and no token depends on what happens to stand behind it: the
positions rise up to the end of the text, blanks stand in front of the first token, and the slices from one token to
the next have the same lexemes as the text when single spaces stand between them. -/
theorem tokenize_slices {text : Text} {tokens : List Token} (h : tokenize text = .ok tokens) :
    tokens.Pairwise (·.position < ·.position) ∧
    (∃ front, tokens = front ++ [⟨.endOfInput, text.length, []⟩] ∧ ∀ token ∈ front, token.lexeme ≠ .endOfInput) ∧
    (∀ first ∈ tokens.head?, ∀ c ∈ text.take first.position, Text.isBlank c = true) ∧
    ∃ others, tokenize (List.intercalate [.char ' '] (slices text tokens)) = .ok others ∧
      others.map (·.lexeme) = tokens.map (·.lexeme) := by
  have hscanned := Lexer.scanned_of_scan h
  refine ⟨hscanned.pairwise, ?_, ?_, ?_⟩
  · have hlast := hscanned.eq_concat
    rwa [Nat.zero_add] at hlast
  · obtain ⟨gap, first, more, rfl, hgap, htext, hposition⟩ := hscanned.exists_gap
    rintro _ ⟨⟩
    rwa [hposition, Nat.zero_add, htext, List.take_left]
  · have hwritten := hscanned.written_slices (show ([] : Text).length = 0 from rfl)
    obtain ⟨others, hothers, hlexemes⟩ := Lexer.scan_written hwritten 0
    exact ⟨others, hothers, hlexemes.trans hscanned.map_lexeme.symm⟩

/-- Four tokens that nothing separates are separated without a change. -/
theorem tokenize_slices_unspaced : ∃ tokens others, tokenize " a>=15'b' " = .ok tokens ∧
    slices " a>=15'b' " tokens = ["a", ">=", "15", "'b'"] ∧ tokenize "a >= 15 'b'" = .ok others ∧
    others.map (·.lexeme) = [.name "a", .symbol .greaterEqual, .number (.int 15), .text "b", .endOfInput] := by
  have h : tokenize " a>=15'b' " = .ok [⟨.name "a", 1, "a>=15'b' "⟩, ⟨.symbol .greaterEqual, 2, ">=15'b' "⟩,
      ⟨.number (.int 15), 4, "15'b' "⟩, ⟨.text "b", 6, "'b' "⟩, ⟨.endOfInput, 10, []⟩] := by
    rfl
  obtain ⟨-, -, -, others, hothers, hlexemes⟩ := tokenize_slices h
  exact ⟨_, others, h, rfl, hothers, hlexemes⟩

end SnapshotSql
