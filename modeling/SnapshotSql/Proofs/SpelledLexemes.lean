import SnapshotSql.Lexer
import SnapshotSql.Proofs.QueryText
import SnapshotSql.Proofs.SuccessfulRuns
import Mathlib.Data.List.Basic

/-! # Spelled lexemes are read back

Behind the spelling of a lexeme stands a space, a line break, a comma, a parenthesis, a semicolon or nothing,
or it is a minus. This is enough for the lexer to take the lexeme and no more of the text, so spelled lexemes
become the tokens that they are the lexemes of.
-/
namespace SnapshotSql

/-! ## Characters -/

namespace Text

def blankNumbers : List Nat := [
  0x9, 0xA, 0xB, 0xC, 0xD, 0x1C, 0x1D, 0x1E, 0x1F, 0x20, 0x85, 0xA0, 0x1680, 0x2000, 0x2001, 0x2002, 0x2003,
  0x2004, 0x2005, 0x2006, 0x2007, 0x2008, 0x2009, 0x200A, 0x2028, 0x2029, 0x202F, 0x205F, 0x3000]

theorem toNat_mem_blankNumbers {c : CodePoint} (h : isBlank c = true) : c.toNat ∈ blankNumbers := by
  simp only [isBlank, blankRanges, inRanges, Bool.if_false_left, Bool.and_eq_true, Bool.or_eq_true,
    decide_eq_true_eq, Bool.not_eq_true', decide_eq_false_iff_not, Bool.or_false] at h
  simp only [blankNumbers, List.mem_cons, List.not_mem_nil, or_false]
  omega

theorem isBlank_eq_false {c : CodePoint} (h : isWordChar c = true) : isBlank c = false := by
  have hblanks : ∀ n ∈ blankNumbers,
      n < CodePoint.firstSurrogate ∧ isWordChar (.char (Char.ofNat n)) = false := by
    decide +kernel
  by_contra hblank
  obtain ⟨hlt, hword⟩ := hblanks c.toNat (toNat_mem_blankNumbers (eq_true_of_ne_false hblank))
  cases c with
  | char c =>
    rw [CodePoint.toNat, Char.ofNat_toNat, h] at hword
    cases hword
  | surrogate index =>
    rw [CodePoint.toNat] at hlt
    omega

theorem toString_ofChars (chars : List Char) : Text.toString (Text.ofChars chars) = String.ofList chars := by
  simp [Text.toString, Text.ofChars, CodePoint.toChar?, Function.comp_def]

def capitals : List Char :=
  "ABCDEFGHIJKLMNOPQRSTUVWXYZ".toList

theorem upper_capitals {chars : List Char} (h : chars.all capitals.contains = true) :
    upper (Text.ofChars chars) = Text.ofChars chars := by
  have hletters : (capitals.all fun c => upperChar (.char c) = [.char c]) = true := by decide
  induction chars with
  | nil => rfl
  | cons c chars ih =>
    rw [List.all_cons, Bool.and_eq_true, List.contains_iff_mem] at h
    change upperChar (.char c) ++ upper (Text.ofChars chars) = _
    rw [of_decide_eq_true (List.all_eq_true.mp hletters c h.1), ih h.2]
    rfl

theorem isDigit_of_isDecimal {c : CodePoint} (h : isDecimal c = true) : isDigit c = true := by
  rw [isDigit, h, Bool.true_or]

theorem isWordChar_of_isDigit {c : CodePoint} (h : isDigit c = true) : isWordChar c = true := by
  simp [isWordChar, h]

/-- Not empty, and neither the first nor the last character is blank. -/
structure Solid (text : Text) : Prop where
  ne_nil : text ≠ []
  head : ∀ c ∈ text.head?, isBlank c = false
  last : ∀ c ∈ text.getLast?, isBlank c = false

theorem solid_of_forall {text : Text} (hne : text ≠ []) (h : ∀ c ∈ text, isBlank c = false) : Solid text :=
  ⟨hne, fun c hc => h c (List.mem_of_mem_head? hc), fun c hc => h c (List.mem_of_mem_getLast? hc)⟩

theorem Solid.append {text middle other : Text} (h : Solid text) (h' : Solid other) :
    Solid (text ++ middle ++ other) := by
  refine ⟨by simp [h.ne_nil], fun c hc => h.head c ?_, fun c hc => h'.last c ?_⟩
  · rwa [List.append_assoc, List.head?_append_of_ne_nil _ h.ne_nil] at hc
  · rwa [List.getLast?_append_of_ne_nil _ h'.ne_nil] at hc

theorem solid_intercalate {between : Text} {texts : List Text} (hne : texts ≠ [])
    (h : ∀ text ∈ texts, Solid text) : Solid (List.intercalate between texts) := by
  induction texts with
  | nil => exact absurd rfl hne
  | cons text texts ih =>
    obtain ⟨htext, htexts⟩ := List.forall_mem_cons.mp h
    cases texts with
    | nil => simpa using htext
    | cons other texts =>
      rw [List.intercalate_cons_cons]
      exact htext.append (ih (List.cons_ne_nil _ _) htexts)

theorem dropWhile_isBlank {text : Text} (h : ∀ c ∈ text.head?, isBlank c = false) :
    text.dropWhile isBlank = text := by
  cases text with
  | nil => rfl
  | cons c cs => rw [List.dropWhile_cons_of_neg (by simp [h c rfl])]

theorem Solid.trim {text : Text} (h : Solid text) : Text.trim text = text := by
  rw [Text.trim, trimWhere, dropWhile_isBlank h.head, dropWhile_isBlank, List.reverse_reverse]
  rw [List.head?_reverse]
  exact h.last

end Text

namespace Lexer

/-! ## Words -/

/-- The characters that end a word, a number or a quoted text and belong to no longer lexeme. -/
def stops : Text :=
  [.char ' ', .char '\n', .char ',', .char '(', .char ')', .char ';']

/-- A character that ends what stands before it comes first, or nothing does. -/
def Boundary (rest : Text) : Prop :=
  ∀ c ∈ rest.head?, c ∈ stops

def IsWord : Text → Prop
  | [] => False
  | c :: cs => (¬(c = '\'' ∨ c = '"') ∧ Text.isDigit c = false) ∧ (Text.isLetter c ∨ c = '_') ∧ takeWord cs = cs

instance : DecidablePred IsWord
  | [] => .isFalse id
  | _ :: _ => inferInstanceAs (Decidable (_ ∧ _))

variable {lexeme : Lexeme} {c : CodePoint} {cs rest word : Text}

theorem boundary_cons (h : c ∈ stops) : Boundary (c :: rest) := by
  rintro _ ⟨⟩
  exact h

theorem beginsWord_append (h : beginsWord cs = true) : beginsWord (cs ++ rest) = true := by
  cases cs with
  | nil => cases h
  | cons c cs => exact h

theorem beginsWord_of_boundary (h : Boundary rest) : beginsWord rest = false := by
  cases rest with
  | nil => rfl
  | cons c rest =>
    have hstops : ∀ c ∈ stops, beginsWord [c] = false := by decide
    exact hstops c (h c rfl)

theorem takeWord_of_boundary (h : Boundary rest) : takeWord rest = [] := by
  cases rest with
  | nil => rfl
  | cons c rest =>
    have hstops : ∀ c ∈ stops, Text.isWordChar c = false ∧ c ≠ .char '.' := by decide
    obtain ⟨hword, hpoint⟩ := hstops c (h c rfl)
    rw [takeWord, hword, if_neg Bool.false_ne_true, if_neg fun hc => hpoint hc.1]

theorem takeWord_append (hcs : takeWord cs = cs) (h : takeWord rest = []) : takeWord (cs ++ rest) = cs := by
  induction cs with
  | nil => exact h
  | cons c cs ih =>
    rw [takeWord] at hcs
    rw [List.cons_append, takeWord]
    split at hcs
    · next hc => rw [if_pos hc, ih (List.cons.inj hcs).2]
    · split at hcs
      · next hc hpoint => rw [if_neg hc, if_pos ⟨hpoint.1, beginsWord_append hpoint.2⟩, ih (List.cons.inj hcs).2]
      · cases hcs

theorem beginsWord_takeWord (h : beginsWord cs = true) : beginsWord (takeWord cs) = true := by
  cases cs with
  | nil => cases h
  | cons c cs =>
    have hc : Text.isWordChar c = true := by
      simp only [beginsWord, Bool.or_eq_true, decide_eq_true_eq] at h
      obtain h | rfl := h
      · simp [Text.isWordChar, h]
      · rfl
    rw [takeWord, if_pos hc]
    exact h

/-- What has been taken of a word is taken as a whole. -/
theorem takeWord_takeWord (cs : Text) : takeWord (takeWord cs) = takeWord cs := by
  induction cs with
  | nil => rfl
  | cons c cs ih =>
    rw [takeWord]
    split
    · next hc => rw [takeWord, if_pos hc, ih]
    · split
      · next hc hpoint => rw [takeWord, if_neg hc, if_pos ⟨hpoint.1, beginsWord_takeWord hpoint.2⟩, ih]
      · rfl

theorem beginsNumber_cons (hc : c ≠ .char '.') : beginsNumber (c :: cs) = Text.isDigit c := by
  unfold beginsNumber
  split
  · next heq => exact absurd (List.cons.inj heq).1 hc
  · next heq => rw [(List.cons.inj heq).1]
  · next heq => cases heq

theorem ne_point_of_letter (h : Text.isLetter c = true ∨ c = .char '_') : c ≠ .char '.' := by
  rintro rfl
  revert h
  decide

theorem takeLexeme_of_isWord (hword : IsWord word) (hrest : takeWord rest = []) :
    takeLexeme (word ++ rest) = .ok (.ofWord word, word.length) := by
  match word, hword with
  | c :: cs, ⟨⟨hquote, hdigit⟩, hletter, hcs⟩ =>
    rw [List.cons_append, takeLexeme, if_neg hquote, beginsNumber_cons (ne_point_of_letter hletter), hdigit,
      if_neg Bool.false_ne_true, if_pos hletter, takeWord_append hcs hrest]

theorem isWord_of_takeLexeme {count : Nat} (h : takeLexeme cs = .ok (.name word, count)) :
    IsWord word ∧ Lexeme.ofWord word = .name word := by
  unfold takeLexeme at h
  split at h
  · cases h
  · next c cs =>
    split at h
    · split at h <;> cases h
    · next hquote =>
      split at h
      · obtain ⟨⟨number, taken⟩, -, heq⟩ := Check.map_eq_ok.mp h
        cases heq
      · next hnumber =>
        split at h
        · next hletter =>
          have hlexeme : Lexeme.ofWord (c :: takeWord cs) = .name word := congrArg Prod.fst (Except.ok.inj h)
          have hname : word = c :: takeWord cs := by
            unfold Lexeme.ofWord at hlexeme
            dsimp only at hlexeme
            split at hlexeme <;> cases hlexeme
            rfl
          rw [beginsNumber_cons (ne_point_of_letter hletter)] at hnumber
          subst hname
          exact ⟨⟨⟨hquote, eq_false_of_ne_true hnumber⟩, hletter, takeWord_takeWord cs⟩, hlexeme⟩
        · split at h <;> cases h

theorem isWordChar_of_mem_takeWord (h : c ∈ takeWord cs) : Text.isWordChar c = true ∨ c = .char '.' := by
  induction cs with
  | nil => cases h
  | cons d cs ih =>
    rw [takeWord] at h
    split at h
    · next hd =>
      rcases List.mem_cons.mp h with rfl | h
      · exact .inl hd
      · exact ih h
    · split at h
      · next hpoint =>
        rcases List.mem_cons.mp h with rfl | h
        · exact .inr hpoint.1
        · exact ih h
      · cases h

/-- A word consists of word characters and points. -/
theorem IsWord.isWordChar (h : IsWord word) (hc : c ∈ word) : Text.isWordChar c = true ∨ c = .char '.' := by
  match word, h with
  | d :: cs, ⟨_, hletter, hcs⟩ =>
    rcases List.mem_cons.mp hc with rfl | hc
    · obtain hletter | rfl := hletter
      · simp [Text.isWordChar, hletter]
      · exact .inl rfl
    · rw [← hcs] at hc
      exact isWordChar_of_mem_takeWord hc

theorem IsWord.solid (h : IsWord word) : Text.Solid word := by
  have hne : word ≠ [] := by
    rintro rfl
    exact h
  refine Text.solid_of_forall hne fun c hc => ?_
  obtain hword | rfl := h.isWordChar hc
  · exact Text.isBlank_eq_false hword
  · decide

end Lexer

def IsName (word : Text) : Prop :=
  Lexer.IsWord word ∧ Lexeme.ofWord word = .name word

instance : DecidablePred IsName :=
  fun _ => inferInstanceAs (Decidable (_ ∧ _))

def IsCapital (word : String) : Prop :=
  word.toList ≠ [] ∧ word.toList.all Text.capitals.contains = true

instance : DecidablePred IsCapital :=
  fun _ => inferInstanceAs (Decidable (_ ∧ _))

theorem IsCapital.upper {word : String} (h : IsCapital word) : (Text.upper (Text.ofString word)).toString = word := by
  rw [Text.ofString, Text.upper_capitals h.2, Text.toString_ofChars, String.ofList_toList]

theorem IsCapital.isWordChar {word : String} (h : IsCapital word) :
    ∀ c ∈ Text.ofString word, Text.isWordChar c = true := by
  have hletters : (Text.capitals.all fun c => Text.isWordChar (.char c)) = true := by decide
  intro c hc
  obtain ⟨letter, hletter, rfl⟩ := List.mem_map.mp hc
  have hcapital := List.all_eq_true.mp h.2 letter hletter
  exact List.all_eq_true.mp hletters letter (List.contains_iff_mem.mp hcapital)

theorem IsCapital.isWord {word : String} (h : IsCapital word) : Lexer.IsWord (Text.ofString word) := by
  have hletters : (Text.capitals.all fun c => Lexer.IsWord [.char c]) = true := by decide
  have htaken : ∀ cs : Text, (∀ c ∈ cs, Text.isWordChar c = true) → Lexer.takeWord cs = cs := by
    intro cs hcs
    induction cs with
    | nil => rfl
    | cons c cs ih =>
      obtain ⟨hc, hrest⟩ := List.forall_mem_cons.mp hcs
      rw [Lexer.takeWord, if_pos hc, ih hrest]
  have hchars := h.isWordChar
  obtain ⟨c, chars, hword⟩ := List.exists_cons_of_ne_nil h.1
  have hall := h.2
  rw [hword, List.all_cons, Bool.and_eq_true, List.contains_iff_mem] at hall
  obtain ⟨hfirst, hletter, -⟩ := of_decide_eq_true (List.all_eq_true.mp hletters c hall.1)
  rw [Text.ofString, hword] at hchars ⊢
  exact ⟨hfirst, hletter, htaken _ (List.forall_mem_cons.mp hchars).2⟩

/-- Such a word is told by itself. -/
theorem IsCapital.isWord_name {word : String} (h : IsCapital word) (words : List String) :
    (Lexeme.name (Text.ofString word)).isWord words = words.contains word := by
  rw [Lexeme.isWord, h.upper]

theorem IsCapital.isName {word : String} (h : IsCapital word) (hkeyword : word ∉ keywords) :
    IsName (Text.ofString word) := by
  refine ⟨h.isWord, ?_⟩
  rw [Lexeme.ofWord, h.upper]
  exact if_neg fun hmem => hkeyword (List.contains_iff_mem.mp hmem)

theorem IsName.ne_nil {word : Text} (h : IsName word) : word ≠ [] :=
  h.1.solid.ne_nil

namespace Lexer

variable {lexeme : Lexeme} {c : CodePoint} {rest word : Text}

/-! ## Quoted texts -/

theorem takeQuoted_doubled (quote : CodePoint) (value : Text) (hrest : rest.head? ≠ some quote) :
    takeQuoted quote (Text.doubled quote value ++ quote :: rest) =
      some (value, (Text.doubled quote value).length + 1) := by
  induction value with
  | nil =>
    cases rest with
    | nil => simp [Text.doubled, takeQuoted]
    | cons d rest =>
      have hd : d ≠ quote := fun heq => hrest (by rw [heq]; rfl)
      simp [Text.doubled, takeQuoted, hd]
  | cons c value ih =>
    by_cases hc : c = quote
    · rw [hc, Text.doubled_cons_self, List.cons_append, List.cons_append, takeQuoted, if_pos rfl, if_pos rfl, ih]
      rfl
    · obtain ⟨d, ds, heq⟩ := List.exists_cons_of_ne_nil
        (List.append_ne_nil_of_right_ne_nil (Text.doubled quote value) (List.cons_ne_nil quote rest))
      rw [heq] at ih
      rw [Text.doubled_cons_ne hc, List.cons_append, heq, takeQuoted, if_neg hc, ih]
      rfl

theorem solid_quoted {quote : CodePoint} (hquote : quote = .char '\'' ∨ quote = .char '"') (value : Text) :
    Text.Solid (quote :: (Text.doubled quote value ++ [quote])) := by
  have hvisible : Text.isBlank quote = false := by obtain rfl | rfl := hquote <;> decide
  constructor
  · simp
  · simp [hvisible]
  · simp [List.getLast?_cons, hvisible]

/-- A quoted text is taken with its quotes, if no other quote follows. -/
theorem takeLexeme_quoted {quote : CodePoint} (hquote : quote = .char '\'' ∨ quote = .char '"') (value : Text)
    (hrest : rest.head? ≠ some quote) : takeLexeme (quote :: (Text.doubled quote value ++ [quote]) ++ rest) =
      .ok (.text value, (quote :: (Text.doubled quote value ++ [quote])).length) := by
  have htaken := takeQuoted_doubled quote value hrest
  rw [List.cons_append, List.append_assoc, List.singleton_append, takeLexeme, if_pos hquote, htaken]
  simp

end Lexer

/-- The lexer takes the lexeme from its spelling, whatever stands behind the boundary there. -/
structure Lexeme.Spelled (lexeme : Lexeme) : Prop where
  solid : Text.Solid lexeme.spelling
  taken : ∀ rest, Lexer.Boundary rest →
    Lexer.takeLexeme (lexeme.spelling ++ rest) = .ok (lexeme, lexeme.spelling.length)

namespace Lexer

theorem spelled_name (h : IsWord word) (hname : Lexeme.ofWord word = .name word) : (Lexeme.name word).Spelled :=
  ⟨h.solid, fun _ hrest => by rw [Lexeme.spelling, takeLexeme_of_isWord h (takeWord_of_boundary hrest), hname]⟩

theorem spelled_keyword {word : String} (h : word ∈ keywords) : (Lexeme.keyword word).Spelled := by
  have hcapitals : ∀ word ∈ keywords, IsCapital word := by decide
  have hword := (hcapitals word h).isWord
  have hkeyword : Lexeme.ofWord word = .keyword word := by
    rw [Lexeme.ofWord, (hcapitals word h).upper]
    exact if_pos (List.contains_iff_mem.mpr h)
  refine ⟨hword.solid, fun _ hrest => ?_⟩
  rw [Lexeme.spelling, takeLexeme_of_isWord hword (takeWord_of_boundary hrest), hkeyword]

theorem spelled_text (value : Text) : (Lexeme.text value).Spelled := by
  have hquote : CodePoint.char '\'' = .char '\'' ∨ CodePoint.char '\'' = .char '"' := .inl rfl
  refine ⟨solid_quoted hquote value, fun rest hrest => takeLexeme_quoted hquote value ?_⟩
  exact fun heq => absurd (hrest _ heq) (by decide)

theorem takeLexeme_minus (rest : Text) : takeLexeme (.char '-' :: rest) = .ok (.symbol .minus, 1) := by
  rfl

theorem spelled_symbol (symbol : Symbol) : (Lexeme.symbol symbol).Spelled := by
  refine ⟨?_, fun rest hrest => ?_⟩
  · cases symbol <;> exact Text.solid_of_forall (by decide) (by decide)
  · cases rest with
    | nil => cases symbol <;> rfl
    | cons c more =>
      have hc : c ∈ stops := hrest c rfl
      simp only [stops, List.mem_cons, List.not_mem_nil, or_false] at hc
      obtain rfl | rfl | rfl | rfl | rfl | rfl := hc
      all_goals cases symbol <;> rfl

/-! ## Several lexemes -/

theorem scan_skip (position : Nat) (front rest : Text) :
    scan position front.length (front ++ rest) = scan (position + front.length) 0 rest := by
  induction front generalizing position with
  | nil => rfl
  | cons c front ih =>
    rw [List.cons_append, List.length_cons, scan, ih, Nat.add_assoc, Nat.add_comm 1]

theorem scan_lexeme {spelling : Text} (position : Nat) (hsolid : Text.Solid spelling)
    (htaken : takeLexeme (spelling ++ rest) = .ok (lexeme, spelling.length)) :
    scan position 0 (spelling ++ rest) =
      (scan (position + spelling.length) 0 rest).map (⟨lexeme, position, spelling ++ rest⟩ :: ·) := by
  obtain ⟨c, cs, rfl⟩ := List.exists_cons_of_ne_nil hsolid.ne_nil
  rw [List.cons_append] at htaken ⊢
  simp only [scan, hsolid.head c rfl, htaken, if_neg Bool.false_ne_true]
  rw [List.length_cons, Nat.add_sub_cancel, scan_skip, Nat.add_assoc, Nat.add_comm 1]

theorem scan_space (position : Nat) (rest : Text) :
    scan position 0 (.char ' ' :: rest) = scan (position + 1) 0 rest := by
  rw [scan, if_pos (by decide)]

theorem spelled_cons (lexeme : Lexeme) {lexemes : List Lexeme} (h : lexemes ≠ []) :
    spelled (lexeme :: lexemes) =
      lexeme.spelling ++ (if lexeme = .symbol .minus then [] else [.char ' ']) ++ spelled lexemes := by
  obtain ⟨other, lexemes, rfl⟩ := List.exists_cons_of_ne_nil h
  rfl

/-- The tokens of spelled lexemes are these lexemes and the end of the input. -/
theorem scan_spelled {lexemes : List Lexeme} (h : ∀ lexeme ∈ lexemes, lexeme.Spelled) (position : Nat) :
    ∃ tokens, scan position 0 (spelled lexemes) = .ok tokens ∧
      tokens.map (·.lexeme) = lexemes ++ [.endOfInput] := by
  induction lexemes using spelled.induct generalizing position with
  | case1 => exact ⟨_, rfl, rfl⟩
  | case2 lexeme =>
    obtain ⟨hsolid, htaken⟩ := h lexeme List.mem_cons_self
    have hscan := scan_lexeme position hsolid (htaken [] nofun)
    rw [List.append_nil] at hscan
    exact ⟨_, hscan, rfl⟩
  | case3 lexeme lexemes hne ih =>
    obtain ⟨hlexeme, hrest⟩ := List.forall_mem_cons.mp h
    rw [spelled_cons lexeme hne, List.append_assoc]
    by_cases hminus : lexeme = .symbol .minus
    · subst hminus
      obtain ⟨tokens, hscan, htokens⟩ := ih hrest (position + 1)
      refine ⟨_, (scan_lexeme position hlexeme.solid (takeLexeme_minus _)).trans (congrArg _ hscan), ?_⟩
      rw [List.map_cons, htokens, List.cons_append]
    · obtain ⟨tokens, hscan, htokens⟩ := ih hrest (position + lexeme.spelling.length + 1)
      have htaken := hlexeme.taken (.char ' ' :: spelled lexemes) (boundary_cons (by decide))
      rw [if_neg hminus]
      have hspace := (scan_space _ _).trans hscan
      refine ⟨_, (scan_lexeme position hlexeme.solid htaken).trans (congrArg _ hspace), ?_⟩
      rw [List.map_cons, htokens, List.cons_append]

theorem solid_spelled {lexemes : List Lexeme} (h : ∀ lexeme ∈ lexemes, lexeme.Spelled) (hne : lexemes ≠ []) :
    Text.Solid (spelled lexemes) := by
  induction lexemes using spelled.induct with
  | case1 => exact absurd rfl hne
  | case2 lexeme => exact (h lexeme List.mem_cons_self).solid
  | case3 lexeme lexemes hmore ih =>
    obtain ⟨hlexeme, hrest⟩ := List.forall_mem_cons.mp h
    rw [spelled_cons lexeme hmore]
    exact hlexeme.solid.append (ih hrest hmore)

end Lexer

end SnapshotSql
