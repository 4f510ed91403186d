import SnapshotSql.Proofs.UnreadableNumerals
import SnapshotSql.Proofs.WrittenLexemes
import Mathlib.Data.List.Induction

/-! # The longest lexeme that a text begins with

A quoted text ends at a quote with no other one behind it, a numeral where no digit and no word goes on, a word
where its characters end, and a sign where no longer sign goes on. These conditions on what stands behind a lexeme
determine what the lexer takes, and each of them holds on when the text is cut at some place behind the lexeme and
goes on there with a boundary.
-/
namespace SnapshotSql

namespace Lexer

variable {c quote : CodePoint} {cs text rest rest' spelling value : Text} {lexeme : Lexeme} {count : Nat}

/-- A lexeme by its spelling, in front of a text that does not make it longer. -/
inductive Begins : Text → Lexeme → Text → Prop
  | quoted {quote : CodePoint} {value rest : Text} (hquote : quote = .char '\'' ∨ quote = .char '"')
      (hrest : rest.head? ≠ some quote) :
      Begins (quote :: (Text.doubled quote value ++ [quote])) (.text value) rest
  | numeral {point : Bool} {mantissa exponent rest : Text} {number : Number}
      (hmantissa : Numeral.IsMantissa point mantissa) (hexponent : Numeral.IsExponent exponent)
      (hread : readNumber (point || !exponent.isEmpty) (mantissa ++ exponent) = .ok number)
      (hrest : NumeralEnds exponent rest) : Begins (mantissa ++ exponent) (.number number) rest
  | word {word rest : Text} (hword : IsWord word) (hrest : takeWord rest = []) : Begins word (.ofWord word) rest
  | sign {symbol : Symbol} {rest : Text}
      (hrest : ∀ c ∈ rest.head?, ∀ longer : Symbol, longer.text ≠ symbol.text ++ [c]) :
      Begins symbol.text (.symbol symbol) rest

/-! ## What is taken begins the text -/

/-- A quoted text that is taken has its quotes in pairs, and no quote follows the last one. -/
theorem takeQuoted_eq (h : takeQuoted quote cs = some (value, count)) :
    ∃ rest, cs = Text.doubled quote value ++ quote :: rest ∧ count = (Text.doubled quote value).length + 1 ∧
      rest.head? ≠ some quote := by
  induction cs using List.twoStepInduction generalizing value count with
  | nil => cases h
  | singleton c =>
    simp only [takeQuoted] at h
    split at h
    · next hc =>
      cases h
      exact ⟨[], by simp [Text.doubled, hc], rfl, by simp⟩
    · cases h
  | cons_cons c d cs ih ih' =>
    rw [takeQuoted] at h
    split at h
    · next hc =>
      subst hc
      split at h
      · next hd =>
        subst hd
        obtain ⟨⟨taken, number⟩, htaken, heq⟩ := Option.map_eq_some_iff.mp h
        cases heq
        obtain ⟨rest, rfl, rfl, hrest⟩ := ih htaken
        exact ⟨rest, by simp [Text.doubled_cons_self], by simp [Text.doubled_cons_self], hrest⟩
      · next hd =>
        cases h
        exact ⟨d :: cs, rfl, rfl, by simpa using hd⟩
    · next hc =>
      obtain ⟨⟨taken, number⟩, htaken, heq⟩ := Option.map_eq_some_iff.mp h
      cases heq
      obtain ⟨rest, hcs, rfl, hrest⟩ := ih' d htaken
      exact ⟨rest, by rw [Text.doubled_cons_ne hc, hcs, List.cons_append], by simp [Text.doubled_cons_ne hc], hrest⟩

theorem takeMantissa_rest {point point' : Bool} {mantissa : Text}
    (h : takeMantissa point cs = some (mantissa, point')) :
    ∃ rest, cs = mantissa ++ rest ∧ ∀ c ∈ rest.head?, c ≠ .char '.' ∧ Text.isDigit c = false := by
  induction cs generalizing point mantissa with
  | nil =>
    cases h
    exact ⟨[], rfl, nofun⟩
  | cons c cs ih =>
    rw [takeMantissa] at h
    split at h
    · split at h
      · cases h
      · obtain ⟨⟨taken, last⟩, htaken, heq⟩ := Option.map_eq_some_iff.mp h
        cases heq
        obtain ⟨rest, rfl, hrest⟩ := ih htaken
        exact ⟨rest, rfl, hrest⟩
    · next hpoint =>
      split at h
      · obtain ⟨⟨taken, last⟩, htaken, heq⟩ := Option.map_eq_some_iff.mp h
        cases heq
        obtain ⟨rest, rfl, hrest⟩ := ih htaken
        exact ⟨rest, rfl, hrest⟩
      · next hdigit =>
        cases h
        refine ⟨c :: cs, rfl, ?_⟩
        rintro _ ⟨⟩
        exact ⟨hpoint, eq_false_of_ne_true hdigit⟩

theorem takeWhile_rest (cs : Text) : ∃ rest, cs = cs.takeWhile Text.isDigit ++ rest ∧
    ∀ c ∈ rest.head?, Text.isDigit c = false := by
  refine ⟨cs.dropWhile Text.isDigit, List.takeWhile_append_dropWhile.symm, fun c hc => ?_⟩
  have hstop := List.head?_dropWhile_not Text.isDigit cs
  rw [hc] at hstop
  simpa using hstop

theorem takeExponent_rest (cs : Text) : ∃ rest, cs = takeExponent cs ++ rest ∧
    (takeExponent cs ≠ [] → ∀ c ∈ rest.head?, Text.isDigit c = false) := by
  have hnone : ∃ rest, cs = [] ++ rest ∧ (([] : Text) ≠ [] → ∀ c ∈ rest.head?, Text.isDigit c = false) :=
    ⟨cs, rfl, fun hne => absurd rfl hne⟩
  unfold takeExponent
  split
  · next letter c more =>
    obtain ⟨rest, hmore, hrest⟩ := takeWhile_rest more
    split
    · split
      · exact ⟨rest, by rw [List.cons_append, List.cons_append, ← hmore], fun _ => hrest⟩
      · split
        · split
          · exact hnone
          · next digits _ => exact ⟨rest, by rw [List.cons_append, List.cons_append, ← hmore], fun _ => hrest⟩
        · exact hnone
    · exact hnone
  · exact hnone

/-- A number that is taken is a numeral, and nothing makes it longer. -/
theorem takeNumber_eq {number : Number} (hbegins : beginsNumber cs = true) (h : takeNumber cs = .ok (number, count)) :
    ∃ spelling rest, cs = spelling ++ rest ∧ count = spelling.length ∧ Begins spelling (.number number) rest := by
  unfold takeNumber at h
  split at h
  · cases h
  · next mantissa point hmantissa =>
    obtain ⟨tail, rfl, htail⟩ := takeMantissa_rest hmantissa
    obtain ⟨rest, hexponent, hrest⟩ := takeExponent_rest tail
    rw [List.drop_left] at h
    dsimp only at h
    split at h
    · cases h
    · next hword =>
      obtain ⟨value, hread, heq⟩ := Check.map_eq_ok.mp h
      cases heq
      have hplain := fun c hc => not_isMark_of_readNumber (c := c) hread hc
      obtain ⟨hplain, hplain'⟩ := List.forall_mem_append.mp hplain
      have hmantissa' := isMantissa_of_takeMantissa hbegins hmantissa hplain
      have hexponent' := isExponent_takeExponent hplain'
      have hdrop : (mantissa ++ tail).drop (mantissa.length + (takeExponent tail).length) = rest := by
        rw [← List.drop_drop, List.drop_left]
        nth_rewrite 2 [hexponent]
        rw [List.drop_left]
      rw [hdrop, Bool.not_eq_true] at hword
      refine ⟨mantissa ++ takeExponent tail, rest, by rw [List.append_assoc, ← hexponent], by simp, ?_⟩
      refine .numeral hmantissa' hexponent' hread ⟨?_, ?_, hword⟩
      · by_cases hnone : takeExponent tail = []
        · rw [hnone, List.nil_append] at hexponent
          exact fun c hc => (htail c (hexponent ▸ hc)).2
        · exact hrest hnone
      · intro hnone hpoint
        rw [hnone, List.nil_append] at hexponent
        exact (htail _ (hexponent ▸ hpoint)).1 rfl

theorem takeWord_rest (cs : Text) : ∃ rest, cs = takeWord cs ++ rest ∧ takeWord rest = [] := by
  induction cs with
  | nil => exact ⟨[], rfl, rfl⟩
  | cons c cs ih =>
    obtain ⟨rest, hcs, hrest⟩ := ih
    rw [takeWord]
    split
    · exact ⟨rest, by rw [List.cons_append, ← hcs], hrest⟩
    · next hchar =>
      split
      · exact ⟨rest, by rw [List.cons_append, ← hcs], hrest⟩
      · next hpoint => exact ⟨c :: cs, rfl, by rw [takeWord, if_neg hchar, if_neg hpoint]⟩

/-- A sign that another one begins with is one of the two comparisons. -/
theorem eq_of_longer {symbol longer : Symbol} (h : longer.text = symbol.text ++ [c]) :
    symbol = .less ∧ c ∈ Text.ofString "=>" ∨ symbol = .greater ∧ c = .char '=' := by
  have hlast : longer.text.getLast? = some c := by rw [h, List.getLast?_append_of_ne_nil _ (List.cons_ne_nil _ _)]; rfl
  have hfront : longer.text.dropLast = symbol.text := by rw [h, List.dropLast_concat]
  clear h
  cases longer
  all_goals cases hlast
  all_goals cases symbol <;> revert hfront <;> decide

theorem takeSymbol?_eq {symbol : Symbol} (h : takeSymbol? cs = some (symbol, count)) :
    ∃ rest, cs = symbol.text ++ rest ∧ count = symbol.text.length ∧
      ∀ c ∈ rest.head?, ∀ longer : Symbol, longer.text ≠ symbol.text ++ [c] := by
  unfold takeSymbol? at h
  split at h
  all_goals cases h
  all_goals refine ⟨_, rfl, rfl, fun c hc longer hlonger => ?_⟩
  all_goals obtain ⟨heq, hmem⟩ | ⟨heq, hmem⟩ := eq_of_longer hlonger
  all_goals cases heq
  all_goals obtain ⟨more, rfl⟩ := List.head?_eq_some_iff.mp hc
  · rename_i hangles hequal
    obtain rfl | rfl : c = .char '=' ∨ c = .char '>' := by simpa [Text.ofString, Text.ofChars] using hmem
    · exact hequal more rfl
    · exact hangles more rfl
  · rename_i hequal
    exact hequal more (congrArg (· :: more) hmem)

theorem takeSymbol?_text {symbol : Symbol}
    (hrest : ∀ c ∈ rest.head?, ∀ longer : Symbol, longer.text ≠ symbol.text ++ [c]) :
    takeSymbol? (symbol.text ++ rest) = some (symbol, symbol.text.length) := by
  cases symbol
  case less =>
    cases rest with
    | nil => rfl
    | cons c more =>
      have hgreater : c ≠ .char '>' := by rintro rfl; exact hrest _ rfl .angles rfl
      have hequal : c ≠ .char '=' := by rintro rfl; exact hrest _ rfl .lessEqual rfl
      change takeSymbol? (.char '<' :: c :: more) = _
      simp [takeSymbol?, hgreater, hequal]
      rfl
  case greater =>
    cases rest with
    | nil => rfl
    | cons c more =>
      have hequal : c ≠ .char '=' := by rintro rfl; exact hrest _ rfl .greaterEqual rfl
      change takeSymbol? (.char '>' :: c :: more) = _
      simp [takeSymbol?, hequal]
      rfl
  all_goals rfl

/-! ## What begins a text is taken -/

/-- A sign begins with no quote, no number and no word. -/
theorem takeLexeme_symbol {symbol : Symbol} (h : takeSymbol? (symbol.text ++ rest) = some (symbol, count)) :
    takeLexeme (symbol.text ++ rest) = .ok (.symbol symbol, count) := by
  obtain ⟨c, cs, htext, hquote, hletter, hnumber⟩ : ∃ c cs, symbol.text = c :: cs ∧ ¬(c = '\'' ∨ c = '"') ∧
      ¬(Text.isLetter c = true ∨ c = '_') ∧ beginsNumber (c :: (cs ++ rest)) = false := by
    cases symbol <;> exact ⟨_, _, rfl, by decide, by decide, rfl⟩
  rw [htext, List.cons_append] at h ⊢
  rw [takeLexeme, if_neg hquote, hnumber, if_neg Bool.false_ne_true, if_neg hletter, h]

theorem Begins.takeLexeme (h : Begins spelling lexeme rest) :
    takeLexeme (spelling ++ rest) = .ok (lexeme, spelling.length) := by
  cases h with
  | quoted hquote hrest => exact takeLexeme_quoted hquote _ hrest
  | @numeral point mantissa exponent rest number hmantissa hexponent hread hrest =>
    have hbegins : beginsNumber (mantissa ++ exponent ++ rest) = true := by
      rw [List.append_assoc]
      exact beginsNumber_of_isMantissa hmantissa
    exact takeLexeme_of_beginsNumber hbegins (takeNumber_of_shape hmantissa hexponent hrest hread)
  | word hword hrest => exact takeLexeme_of_isWord hword hrest
  | sign hrest => exact takeLexeme_symbol (takeSymbol?_text hrest)

/-- The lexer takes what begins a text, and all that it takes does. -/
theorem takeLexeme_eq_ok_iff : takeLexeme text = .ok (lexeme, count) ↔
    ∃ spelling rest, text = spelling ++ rest ∧ count = spelling.length ∧ Begins spelling lexeme rest := by
  constructor
  · intro h
    unfold Lexer.takeLexeme at h
    split at h
    · cases h
    · next c cs =>
      split at h
      · next hquote =>
        split at h
        · cases h
        · next value count htaken =>
          cases h
          obtain ⟨rest, rfl, rfl, hrest⟩ := takeQuoted_eq htaken
          exact ⟨_, rest, by simp, by simp, .quoted hquote hrest⟩
      · next hquote =>
        split at h
        · next hnumber =>
          obtain ⟨⟨number, taken⟩, htaken, heq⟩ := Check.map_eq_ok.mp h
          cases heq
          exact takeNumber_eq hnumber htaken
        · next hnumber =>
          split at h
          · next hletter =>
            cases h
            obtain ⟨rest, hcs, hrest⟩ := takeWord_rest cs
            rw [beginsNumber_cons (ne_point_of_letter hletter), Bool.not_eq_true] at hnumber
            have hword : IsWord (c :: takeWord cs) := ⟨⟨hquote, hnumber⟩, hletter, takeWord_takeWord cs⟩
            exact ⟨_, rest, by rw [List.cons_append, ← hcs], rfl, .word hword hrest⟩
          · split at h
            · next symbol count htaken =>
              cases h
              obtain ⟨rest, heq, rfl, hrest⟩ := takeSymbol?_eq htaken
              exact ⟨_, rest, heq, rfl, .sign hrest⟩
            · cases h
  · rintro ⟨spelling, rest, rfl, rfl, h⟩
    exact h.takeLexeme

theorem begins_of_taken (h : Lexer.takeLexeme (spelling ++ rest) = .ok (lexeme, spelling.length)) :
    Begins spelling lexeme rest := by
  obtain ⟨front, back, heq, hlength, hbegins⟩ := takeLexeme_eq_ok_iff.mp h
  obtain ⟨rfl, rfl⟩ := List.append_inj heq hlength
  exact hbegins

theorem Begins.solid (h : Begins spelling lexeme rest) : Text.Solid spelling := by
  cases h with
  | quoted hquote _ => exact solid_quoted hquote _
  | numeral hmantissa hexponent _ _ => exact solid_numeral hmantissa hexponent
  | word hword _ => exact hword.solid
  | sign _ => exact (spelled_symbol _).solid

theorem ofWord_eq (word : Text) :
    (∃ keyword, Lexeme.ofWord word = .keyword keyword) ∨ Lexeme.ofWord word = .name word := by
  rw [Lexeme.ofWord]
  split
  · exact .inl ⟨_, rfl⟩
  · exact .inr rfl

theorem Begins.ne_endOfInput (h : Begins spelling lexeme rest) : lexeme ≠ .endOfInput := by
  cases h with
  | word _ _ => obtain ⟨keyword, heq⟩ | heq := ofWord_eq spelling <;> simp [heq]
  | _ => simp

/-- Signs have one spelling. -/
theorem Begins.eq_text {symbol : Symbol} (h : Begins spelling (.symbol symbol) rest) : spelling = symbol.text := by
  generalize hlexeme : Lexeme.symbol symbol = lexeme at h
  cases h with
  | word _ _ => obtain ⟨keyword, heq⟩ | heq := ofWord_eq spelling <;> simp [heq] at hlexeme
  | sign _ =>
    cases hlexeme
    rfl
  | _ => cases hlexeme

/-! ## Cuts behind a lexeme -/

theorem forall_head?_cut {P : CodePoint → Prop} {tail : Text} (hstops : ∀ c ∈ stops, P c)
    (h : ∀ c ∈ (tail ++ rest).head?, P c) (hrest' : Boundary rest') : ∀ c ∈ (tail ++ rest').head?, P c := by
  cases tail with
  | nil => exact fun c hc => hstops c (hrest' c hc)
  | cons d tail => exact h

theorem head?_ne_cut {tail : Text} (hc : c ∉ stops) (h : (tail ++ rest).head? ≠ some c) (hrest' : Boundary rest') :
    (tail ++ rest').head? ≠ some c := by
  intro heq
  have hne : ∀ d ∈ (tail ++ rest).head?, d ≠ c := fun d hd hdc => h (hdc ▸ hd)
  have hstops : ∀ d ∈ stops, d ≠ c := fun d hd hdc => hc (hdc ▸ hd)
  exact forall_head?_cut hstops hne hrest' c heq rfl

theorem beginsWord_cut {tail : Text} (h : beginsWord (tail ++ rest) = false) (hrest' : Boundary rest') :
    beginsWord (tail ++ rest') = false := by
  cases tail with
  | nil => exact beginsWord_of_boundary hrest'
  | cons d tail => exact h

theorem takeWord_cut {tail : Text} (h : takeWord (tail ++ rest) = []) (hrest' : Boundary rest') :
    takeWord (tail ++ rest') = [] := by
  cases tail with
  | nil => exact takeWord_of_boundary hrest'
  | cons d tail =>
    rw [List.cons_append, takeWord] at h ⊢
    split at h
    · cases h
    · next hchar =>
      split at h
      · cases h
      · next hpoint =>
        rw [if_neg hchar, if_neg]
        rintro ⟨hd, hbegins⟩
        have hother : beginsWord (tail ++ rest) = false := eq_false_of_ne_true fun h => hpoint ⟨hd, h⟩
        rw [beginsWord_cut hother hrest'] at hbegins
        cases hbegins

theorem NumeralEnds.cut {exponent tail : Text} (h : NumeralEnds exponent (tail ++ rest)) (hrest' : Boundary rest') :
    NumeralEnds exponent (tail ++ rest') := by
  constructor
  · exact forall_head?_cut (by decide) h.noDigit hrest'
  · exact fun hnone => head?_ne_cut (by decide) (h.noPoint hnone) hrest'
  · exact beginsWord_cut h.noWord hrest'

/-- What stands far behind a lexeme does not matter: a text may be cut anywhere behind it and go on with a
boundary there. -/
theorem Begins.cut {tail : Text} (h : Begins spelling lexeme (tail ++ rest)) (hrest' : Boundary rest') :
    Begins spelling lexeme (tail ++ rest') := by
  generalize hbehind : tail ++ rest = behind at h
  cases h with
  | quoted hquote hrest =>
    subst hbehind
    refine .quoted hquote (head?_ne_cut ?_ hrest hrest')
    obtain rfl | rfl := hquote <;> decide
  | numeral hmantissa hexponent hread hends =>
    subst hbehind
    exact .numeral hmantissa hexponent hread (hends.cut hrest')
  | word hword hrest =>
    subst hbehind
    exact .word hword (takeWord_cut hrest hrest')
  | @sign symbol rest hrest =>
    subst hbehind
    refine .sign (forall_head?_cut ?_ hrest hrest')
    intro c hc longer hlonger
    have hstops : ∀ c ∈ stops, c ∉ Text.ofString "=>" := by decide
    apply hstops c hc
    obtain ⟨-, hmem⟩ | ⟨-, rfl⟩ := eq_of_longer hlonger
    · exact hmem
    · decide

/-! ## The tokens of a text -/

inductive Scanned : Nat → Text → List Token → Prop
  | done (position : Nat) : Scanned position [] [⟨.endOfInput, position, []⟩]
  | blank {position : Nat} {c : CodePoint} {text : Text} {tokens : List Token} (hblank : Text.isBlank c = true)
      (h : Scanned (position + 1) text tokens) : Scanned position (c :: text) tokens
  | lexeme {position : Nat} {spelling text : Text} {lexeme : Lexeme} {tokens : List Token}
      (hbegins : Begins spelling lexeme text) (h : Scanned (position + spelling.length) text tokens) :
      Scanned position (spelling ++ text) (⟨lexeme, position, spelling ++ text⟩ :: tokens)

variable {position : Nat} {tokens : List Token} {lexemes : List Lexeme}

theorem scanned_of_scan (h : scan position 0 text = .ok tokens) : Scanned position text tokens := by
  induction hlength : text.length using Nat.strongRecOn generalizing position text tokens with
  | ind length ih =>
    cases text with
    | nil =>
      cases h
      exact .done position
    | cons c cs =>
      by_cases hblank : Text.isBlank c = true
      · rw [scan, if_pos hblank] at h
        exact .blank hblank (ih cs.length (by simp [← hlength]) h rfl)
      · cases htaken : Lexer.takeLexeme (c :: cs) with
        | error obstacle =>
          simp only [scan, if_neg hblank, htaken] at h
          cases h
        | ok taken =>
          obtain ⟨spelling, rest, heq, hcount, hbegins⟩ := takeLexeme_eq_ok_iff.mp htaken
          have hpositive := List.length_pos_iff.mpr hbegins.solid.ne_nil
          rw [heq, scan_lexeme position hbegins.solid hbegins.takeLexeme] at h
          obtain ⟨more, hscan, rfl⟩ := Check.map_eq_ok.mp h
          have hshorter : rest.length < length := by rw [← hlength, heq, List.length_append]; omega
          rw [heq]
          exact .lexeme hbegins (ih rest.length hshorter hscan rfl)

/-- A token knows the text behind its position. -/
theorem Scanned.exists_front (h : Scanned position text tokens) :
    ∀ token ∈ tokens, ∃ front, text = front ++ token.rest ∧ token.position = position + front.length := by
  induction h with
  | done position => exact List.forall_mem_singleton.mpr ⟨[], rfl, rfl⟩
  | @blank position c text tokens _ _ ih =>
    intro token htoken
    obtain ⟨front, rfl, hposition⟩ := ih token htoken
    refine ⟨c :: front, rfl, ?_⟩
    rw [hposition, List.length_cons]
    omega
  | @lexeme position spelling text lexeme tokens _ _ ih =>
    refine List.forall_mem_cons.mpr ⟨⟨[], rfl, rfl⟩, fun token htoken => ?_⟩
    obtain ⟨front, rfl, hposition⟩ := ih token htoken
    exact ⟨spelling ++ front, by simp, by simp [hposition, Nat.add_assoc]⟩

theorem Scanned.symbol_prefix (h : Scanned position text tokens) :
    ∀ token ∈ tokens, ∀ symbol : Symbol, token.lexeme = .symbol symbol → symbol.text <+: token.rest := by
  induction h with
  | done position => exact List.forall_mem_singleton.mpr nofun
  | blank _ _ ih => exact ih
  | lexeme hbegins _ ih =>
    refine List.forall_mem_cons.mpr ⟨?_, ih⟩
    rintro symbol rfl
    rw [hbegins.eq_text]
    exact List.prefix_append _ _

/-- A sign is written in the text at the position of its token. -/
theorem symbol_prefix_drop {symbol : Symbol} {token : Token} (h : tokenize text = .ok tokens) (htoken : token ∈ tokens)
    (hsymbol : token.lexeme = .symbol symbol) : symbol.text <+: text.drop token.position := by
  have hscanned := scanned_of_scan h
  obtain ⟨front, rfl, hposition⟩ := hscanned.exists_front token htoken
  rw [hposition, Nat.zero_add, List.drop_left]
  exact hscanned.symbol_prefix token htoken symbol hsymbol

def lexemesOf (tokens : List Token) : List Lexeme :=
  (tokens.map (·.lexeme)).filter (· ≠ .endOfInput)

theorem lexemesOf_of_map (h : ∀ lexeme ∈ lexemes, lexeme ≠ .endOfInput)
    (htokens : tokens.map (·.lexeme) = lexemes ++ [.endOfInput]) : lexemesOf tokens = lexemes := by
  have hkept : lexemes.filter (· ≠ .endOfInput) = lexemes :=
    List.filter_eq_self.mpr fun lexeme hmem => decide_eq_true (h lexeme hmem)
  rw [lexemesOf, htokens, List.filter_append, hkept]
  exact List.append_nil _

theorem lexemesOf_cons {token : Token} (h : token.lexeme ≠ .endOfInput) (tokens : List Token) :
    lexemesOf (token :: tokens) = token.lexeme :: lexemesOf tokens := by
  simp [lexemesOf, h]

/-- The end of the input is the last token and no other one. -/
theorem Scanned.eq_concat (h : Scanned position text tokens) :
    ∃ front, tokens = front ++ [⟨.endOfInput, position + text.length, []⟩] ∧
      ∀ token ∈ front, token.lexeme ≠ .endOfInput := by
  induction h with
  | done position => exact ⟨[], rfl, List.forall_mem_nil _⟩
  | @blank position c text tokens _ _ ih =>
    obtain ⟨front, rfl, hfront⟩ := ih
    exact ⟨front, by rw [List.length_cons, Nat.add_assoc, Nat.add_comm 1], hfront⟩
  | lexeme hbegins _ ih =>
    obtain ⟨front, rfl, hfront⟩ := ih
    refine ⟨_ :: front, by rw [List.length_append, Nat.add_assoc, List.cons_append], ?_⟩
    exact List.forall_mem_cons.mpr ⟨hbegins.ne_endOfInput, hfront⟩

theorem Scanned.map_lexeme (h : Scanned position text tokens) :
    tokens.map (·.lexeme) = lexemesOf tokens ++ [.endOfInput] := by
  obtain ⟨front, heq, hfront⟩ := h.eq_concat
  have hlexemes : tokens.map (·.lexeme) = front.map (·.lexeme) ++ [.endOfInput] := by
    rw [heq, List.map_append]
    rfl
  rw [lexemesOf_of_map (List.forall_mem_map.mpr hfront) hlexemes, hlexemes]

theorem Scanned.written (h : Scanned position text tokens) : Written text (lexemesOf tokens) := by
  induction h with
  | done position => exact .nil
  | blank hblank _ ih => exact .blank hblank ih
  | lexeme hbegins _ ih =>
    rw [lexemesOf_cons hbegins.ne_endOfInput]
    exact .lexeme hbegins.solid hbegins.takeLexeme ih

theorem Written.forall_ne (h : Written text lexemes) : ∀ lexeme ∈ lexemes, lexeme ≠ .endOfInput := by
  induction h with
  | nil => exact List.forall_mem_nil _
  | blank _ _ ih => exact ih
  | lexeme _ htaken _ ih =>
    exact List.forall_mem_cons.mpr ⟨(begins_of_taken htaken).ne_endOfInput, ih⟩

/-- A text has the tokens of the lexemes written in it. -/
theorem Written.tokenize (h : Written text lexemes) :
    ∃ tokens, tokenize text = .ok tokens ∧ lexemesOf tokens = lexemes := by
  obtain ⟨tokens, hscan, htokens⟩ := scan_written h 0
  exact ⟨tokens, hscan, lexemesOf_of_map h.forall_ne htokens⟩

end Lexer

end SnapshotSql
