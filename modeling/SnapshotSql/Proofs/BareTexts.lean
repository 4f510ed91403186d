import SnapshotSql.Proofs.SuccessfulRuns
import SnapshotSql.Proofs.UncommentedText

/-! # Texts of words and signs

A text in which only words, whole numbers, blanks, commas, points and parentheses stand holds no comment and no
quote. With a semicolon behind it, it is a text of one statement, whose kind its first two words tell.
-/
namespace SnapshotSql

namespace SourceText

/-- The characters apart from those of words that stand in such a text. -/
def plainSigns : Text :=
  Text.ofString ". \n(),"

def Bare (text : Text) : Prop :=
  ∀ c ∈ text, Text.isWordChar c = true ∨ c ∈ plainSigns

instance : DecidablePred Bare :=
  fun text => inferInstanceAs (Decidable (∀ c ∈ text, _))

variable {text text' : Text}

@[simp] theorem bare_append : Bare (text ++ text') ↔ Bare text ∧ Bare text' :=
  List.forall_mem_append

theorem bare_intercalate {between : Text} (hbetween : Bare between) {texts : List Text}
    (h : ∀ text ∈ texts, Bare text) : Bare (List.intercalate between texts) := by
  induction texts with
  | nil => exact nofun
  | cons text texts ih =>
    obtain ⟨htext, htexts⟩ := List.forall_mem_cons.mp h
    cases texts with
    | nil => simpa using htext
    | cons other texts =>
      rw [List.intercalate_cons_cons, bare_append, bare_append]
      exact ⟨⟨htext, hbetween⟩, ih htexts⟩

theorem bare_name {name : Text} (h : IsName name) : Bare name := by
  intro c hc
  obtain hword | rfl := h.1.isWordChar hc
  · exact .inl hword
  · exact .inr (by decide)

theorem bare_capital {word : String} (h : IsCapital word) : Bare (Text.ofString word) :=
  fun c hc => .inl (h.isWordChar c hc)

theorem bare_count (count : Nat) : Bare (Numeral.wholeText count) := by
  have hcount : Numeral.wholeText count = Text.ofChars (Nat.toDigits 10 count) := by
    rw [Numeral.wholeText, if_neg (by omega), Int.natAbs_natCast]
  rw [hcount]
  intro c hc
  have hdigit := (Numeral.isMantissa_toDigits count).isDecimal hc
  obtain hdecimal | rfl := hdigit
  · exact .inl (Text.isWordChar_of_isDigit (Text.isDigit_of_isDecimal hdecimal))
  · exact .inr (by decide)

/-! ## Cutting such a text -/

theorem Bare.kept (h : Bare text) : Kept text := by
  have hsigns : ∀ c ∈ plainSigns, c ∉ marks := by decide
  apply kept_of_forall
  intro c hc
  obtain hword | hsign := h c hc
  · exact not_mem_marks_of_isWordChar hword
  · exact hsigns c hsign

/-- No character of such a text ends a statement or begins a quoted text. -/
theorem Bare.plain (h : Bare text) : ∀ c ∈ text, c ≠ .char ';' ∧ isQuote c = false := by
  have hothers : ∀ c : CodePoint, c = .char ';' ∨ isQuote c = true → Text.isWordChar c = false ∧ c ∉ plainSigns := by
    intro c hc
    have hmarks : c = .char ';' ∨ c = .char '\'' ∨ c = .char '"' := by simpa [isQuote] using hc
    obtain rfl | rfl | rfl := hmarks <;> decide
  intro c hc
  by_contra hnot
  have hother : c = .char ';' ∨ isQuote c = true := by
    by_contra hneither
    simp only [not_or, Bool.not_eq_true] at hneither
    exact hnot hneither
  obtain ⟨hword, hsign⟩ := hothers c hother
  obtain htrue | hmem := h c hc
  · rw [hword] at htrue
    cases htrue
  · exact hsign hmem

theorem pieces_append (h : ∀ c ∈ text, c ≠ .char ';' ∧ isQuote c = false) :
    pieces none (text ++ Text.ofString ";") = [text, []] := by
  induction text with
  | nil => rfl
  | cons c text ih =>
    obtain ⟨⟨hother, hquote⟩, hrest⟩ := List.forall_mem_cons.mp h
    rw [List.cons_append, pieces, if_neg hother, hquote, if_neg Bool.false_ne_true, ih hrest]
    rfl

/-- With a semicolon behind it, such a text is one statement. -/
theorem statements_terminated (h : Bare text) (hsolid : Text.Solid text) :
    statements (text ++ Text.ofString ";") = [text] := by
  have hempty : Text.trim [] = [] := rfl
  rw [statements, pieces_append h.plain]
  simp [hsolid.trim, hempty, hsolid.ne_nil]

theorem takeWord_of_isWordChar {word rest : Text} (h : ∀ c ∈ word, Text.isWordChar c = true)
    (hrest : ∀ c ∈ rest.head?, Text.isWordChar c = false) :
    takeWord (word ++ rest) = ((Text.upper word).toString, rest) := by
  have htake : rest.takeWhile Text.isWordChar = [] ∧ rest.dropWhile Text.isWordChar = rest := by
    cases rest with
    | nil => exact ⟨rfl, rfl⟩
    | cons c rest => simp [hrest c rfl]
  rw [takeWord, List.takeWhile_append_of_pos h, List.dropWhile_append_of_pos h, htake.1, htake.2, List.append_nil]

theorem takeWord_append {word : String} (h : IsCapital word) {rest : Text}
    (hrest : ∀ c ∈ rest.head?, Text.isWordChar c = false) : takeWord (Text.ofString word ++ rest) = (word, rest) := by
  rw [takeWord_of_isWordChar h.isWordChar hrest, h.upper]

/-- A text that begins with CREATE TABLE and a blank. -/
theorem kind?_createTable (rest : Text) : kind? (Text.ofString "CREATE TABLE " ++ rest) = some .createTable := by
  have hcapital : IsCapital "CREATE" ∧ IsCapital "TABLE" := by decide
  have hspace : ∀ c ∈ (.char ' ' :: rest : Text).head?, Text.isWordChar c = false := by
    rintro _ ⟨⟩
    decide
  have hspaces : ∀ c ∈ (.char ' ' :: (Text.ofString "TABLE" ++ .char ' ' :: rest) : Text).head?,
      Text.isWordChar c = false := by
    rintro _ ⟨⟩
    decide
  have htext : Text.ofString "CREATE TABLE " ++ rest =
      Text.ofString "CREATE" ++ .char ' ' :: (Text.ofString "TABLE" ++ .char ' ' :: rest) := rfl
  have hcreate : (Text.ofString "CREATE TABLE " ++ rest).dropWhile Text.isBlank =
      Text.ofString "CREATE TABLE " ++ rest := Text.dropWhile_isBlank (by rintro _ ⟨⟩; decide)
  have htable : (.char ' ' :: (Text.ofString "TABLE" ++ .char ' ' :: rest) : Text).dropWhile Text.isBlank =
      Text.ofString "TABLE" ++ .char ' ' :: rest := by
    rw [List.dropWhile_cons_of_pos (by decide)]
    exact Text.dropWhile_isBlank (by rintro _ ⟨⟩; decide)
  rw [kind?, hcreate, htext, takeWord_append hcapital.1 hspaces]
  simp only [htable, takeWord_append hcapital.2 hspace]
  rfl

/-- A text that begins with SELECT and a blank. -/
theorem kind?_select (rest : Text) : kind? (Text.ofString "SELECT" ++ .char ' ' :: rest) = some .select := by
  have hcapital : IsCapital "SELECT" := by decide
  have hspace : ∀ c ∈ (.char ' ' :: rest : Text).head?, Text.isWordChar c = false := by
    rintro _ ⟨⟩
    decide
  have hselect : (Text.ofString "SELECT" ++ .char ' ' :: rest).dropWhile Text.isBlank =
      Text.ofString "SELECT" ++ .char ' ' :: rest := Text.dropWhile_isBlank (by rintro _ ⟨⟩; decide)
  rw [kind?, hselect, takeWord_append hcapital hspace]
  rfl

end SourceText

end SnapshotSql
