import SnapshotSql.Proofs.SpelledNumbers
import SnapshotSql.SourceText

/-! # Text without comments

Only a few characters can begin a comment or a quoted text. Text that holds none of them is kept when comments
are dropped, and so is a quoted text, whatever stands inside, and a minus with something else behind it.
-/
namespace SnapshotSql.SourceText

/-- Dropping comments keeps the text and goes on behind it as it would have begun there. -/
def Kept (text : Text) : Prop :=
  ∀ rest, withoutCommentsIn .code (text ++ rest) = text ++ withoutCommentsIn .code rest

variable {c : CodePoint} {text text' : Text}

theorem Kept.withoutComments (h : Kept text) : withoutComments text = text := by
  simpa [SourceText.withoutComments, withoutCommentsIn] using h []

theorem kept_nil : Kept [] :=
  fun _ => rfl

theorem Kept.append (h : Kept text) (h' : Kept text') : Kept (text ++ text') := by
  intro rest
  rw [List.append_assoc, h, h', List.append_assoc]

def marks : Text :=
  [.char '/', .char '-', .char '#', .char '－', .char '—', .char '\'', .char '"']

/-- A character that is no mark is kept. -/
theorem kept_char (hc : c ∉ marks) : Kept [c] := by
  intro rest
  simp only [marks, List.mem_cons, List.not_mem_nil, or_false, not_or] at hc
  simp [withoutCommentsIn, isQuote, hc]

theorem kept_of_forall (h : ∀ c ∈ text, c ∉ marks) : Kept text := by
  induction text with
  | nil => exact kept_nil
  | cons c text ih =>
    obtain ⟨hc, htext⟩ := List.forall_mem_cons.mp h
    exact (kept_char hc).append (ih htext)

theorem kept_intercalate {between : Text} (hbetween : Kept between) {texts : List Text}
    (h : ∀ text ∈ texts, Kept text) : Kept (List.intercalate between texts) := by
  induction texts with
  | nil => exact kept_nil
  | cons text texts ih =>
    obtain ⟨htext, htexts⟩ := List.forall_mem_cons.mp h
    cases texts with
    | nil => simpa using htext
    | cons other texts =>
      rw [List.intercalate_cons_cons]
      exact (htext.append hbetween).append (ih htexts)

/-- A minus that is not the last of a text and has no other behind it begins no comment. -/
theorem Kept.minus (hne : text ≠ []) (hhead : ∀ c ∈ text.head?, c ≠ .char '-') (h : Kept text) :
    Kept (.char '-' :: text) := by
  intro rest
  obtain ⟨c, text, rfl⟩ := List.exists_cons_of_ne_nil hne
  have hc : c ≠ .char '-' := hhead c rfl
  have hstep : withoutCommentsIn .code (.char '-' :: c :: (text ++ rest)) =
      .char '-' :: withoutCommentsIn .code (c :: (text ++ rest)) := by
    simp [withoutCommentsIn, isQuote, hc]
  simpa [hstep] using h rest

/-! ## Quoted texts -/

theorem withoutComments_quote {quote : CodePoint} (hquote : isQuote quote = true) (rest : Text) :
    withoutCommentsIn .code (quote :: rest) = quote :: withoutCommentsIn (.quoted quote) rest := by
  have hmarks : quote = .char '\'' ∨ quote = .char '"' := by simpa [isQuote] using hquote
  obtain rfl | rfl := hmarks <;> simp [withoutCommentsIn, isQuote]

/-- Quotes inside come in pairs: the first of a pair ends the quoted text and the second begins another one. -/
theorem withoutComments_doubled {quote : CodePoint} (hquote : isQuote quote = true) (value rest : Text) :
    withoutCommentsIn (.quoted quote) (Text.doubled quote value ++ quote :: rest) =
      Text.doubled quote value ++ quote :: withoutCommentsIn .code rest := by
  induction value with
  | nil => simp [Text.doubled, withoutCommentsIn]
  | cons c value ih =>
    by_cases hc : c = quote
    · simp [hc, Text.doubled_cons_self, withoutCommentsIn, withoutComments_quote hquote, ih]
    · simp [hc, Text.doubled_cons_ne hc, withoutCommentsIn, ih]

/-- A quoted text is kept, whatever its value. -/
theorem kept_quoted {quote : CodePoint} (hquote : isQuote quote = true) (value : Text) :
    Kept (quote :: (Text.doubled quote value ++ [quote])) := by
  intro rest
  have hvalue := withoutComments_doubled hquote value rest
  simp [withoutComments_quote hquote, hvalue]

/-! ## Words and numbers -/

theorem not_mem_marks_of_isWordChar (h : Text.isWordChar c = true) : c ∉ marks := by
  have hmarks : ∀ c ∈ marks, Text.isWordChar c = false := by decide +kernel
  intro hc
  rw [hmarks c hc] at h
  cases h

theorem not_mem_marks_of_isDecimal (h : Text.isDecimal c = true) : c ∉ marks :=
  not_mem_marks_of_isWordChar (Text.isWordChar_of_isDigit (Text.isDigit_of_isDecimal h))

theorem ne_minus_of_isDecimal (h : Text.isDecimal c = true) : c ≠ .char '-' := by
  rintro rfl
  exact not_mem_marks_of_isDecimal h (by decide)

theorem kept_word (h : Lexer.IsWord text) : Kept text := by
  apply kept_of_forall
  intro c hc
  obtain hword | rfl := h.isWordChar hc
  · exact not_mem_marks_of_isWordChar hword
  · decide

theorem kept_mantissa {point : Bool} (h : Numeral.IsMantissa point text) : Kept text := by
  apply kept_of_forall
  intro c hc
  obtain hdecimal | rfl := h.isDecimal hc
  · exact not_mem_marks_of_isDecimal hdecimal
  · decide

/-- The minus of an exponent stands in front of a digit. -/
theorem kept_exponent (h : Numeral.IsExponent text) : Kept text := by
  obtain rfl | ⟨letter, sign, digits, hletter, hsign, ⟨hne, hdigits⟩, rfl⟩ := h
  · exact kept_nil
  have hkept : Kept digits := kept_of_forall fun c hc => not_mem_marks_of_isDecimal (hdigits c hc)
  have hfront : Kept [letter] := by obtain rfl | rfl := hletter <;> exact kept_char (by decide)
  apply hfront.append
  obtain rfl | rfl | rfl := hsign
  · exact hkept
  · exact (kept_char (by decide)).append hkept
  · have hhead : ∀ c ∈ digits.head?, c ≠ .char '-' :=
      fun c hc => ne_minus_of_isDecimal (hdigits c (List.mem_of_mem_head? hc))
    exact hkept.minus hne hhead

/-- A mantissa with an exponent behind it and perhaps a minus in front of it. -/
theorem kept_numeral {point : Bool} {mantissa exponent : Text} (hmantissa : Numeral.IsMantissa point mantissa)
    (hexponent : Numeral.IsExponent exponent) :
    Kept (mantissa ++ exponent) ∧ Kept (.char '-' :: (mantissa ++ exponent)) := by
  have hkept := (kept_mantissa hmantissa).append (kept_exponent hexponent)
  have hne : mantissa ++ exponent ≠ [] := List.append_ne_nil_of_left_ne_nil hmantissa.ne_nil _
  have hhead : ∀ c ∈ (mantissa ++ exponent).head?, c ≠ .char '-' := by
    intro c hc
    rw [List.head?_append_of_ne_nil _ hmantissa.ne_nil] at hc
    obtain hdecimal | rfl := hmantissa.isDecimal (List.mem_of_mem_head? hc)
    · exact ne_minus_of_isDecimal hdecimal
    · decide
  exact ⟨hkept, hkept.minus hne hhead⟩

end SnapshotSql.SourceText
