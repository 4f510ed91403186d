import SnapshotSql.Proofs.LongestLexemes
import SnapshotSql.Proofs.UncommentedText

/-! # Texts divided into code, quoted texts and comments

Outside quotes and comments a text goes on with one of a few parts: a character of code, a quoted text with its
quotes doubled inside, a block comment up to its first end, or a comment up to the end of the line. A quoted text
and a block comment may also go on to the end of the text. Every text is divided in exactly one way. Dropping
comments leaves a space of each block comment and nothing of the others, and what is left is divided into the same
code and the same quoted texts again: no mark and no quote comes to stand beside a character that changes it.
-/
namespace SnapshotSql

namespace SourceText

def lineMarkers : List Text :=
  ["--", "//", "#", "－－", "——"]

def markers : List Text :=
  "/*" :: lineMarkers

def Marked (text : Text) : Prop :=
  ∃ marker ∈ markers, marker <+: text

inductive Part where
  | code (c : CodePoint)
  | quoted (quote : CodePoint) (value : Text)
  | openQuoted (quote : CodePoint) (value : Text)
  | block (inside : Text)
  | openBlock (inside : Text)
  | line (marker inside : Text)
  deriving DecidableEq

def Part.text : Part → Text
  | .code c => [c]
  | .quoted quote value => quote :: (Text.doubled quote value ++ [quote])
  | .openQuoted quote value => quote :: Text.doubled quote value
  | .block inside => "/*" ++ inside ++ "*/"
  | .openBlock inside => "/*" ++ inside
  | .line marker inside => marker ++ inside

def Part.remains : Part → List Part
  | .code c => [.code c]
  | .quoted quote value => [.quoted quote value]
  | .openQuoted quote value => [.openQuoted quote value]
  | .block _ => [.code ' ']
  | .openBlock _ => [.code ' ']
  | .line _ _ => []

/-- The part stands in front of the text, and ends there. -/
inductive Opens : Part → Text → Prop
  | code {c : CodePoint} {rest : Text} (hquote : isQuote c = false) (hmark : ¬ Marked (c :: rest)) :
      Opens (.code c) rest
  | quoted {quote : CodePoint} {value rest : Text} (hquote : isQuote quote = true)
      (hrest : rest.head? ≠ some quote) : Opens (.quoted quote value) rest
  | openQuoted {quote : CodePoint} {value : Text} (hquote : isQuote quote = true) : Opens (.openQuoted quote value) []
  | block {inside rest : Text} (hinside : ¬ "*/" <:+: inside) : Opens (.block inside) rest
  | openBlock {inside : Text} (hinside : ¬ "*/" <:+: inside) : Opens (.openBlock inside) []
  | line {marker inside rest : Text} (hmarker : marker ∈ lineMarkers)
      (hinside : ∀ c ∈ inside, c ≠ .char '\n') (hrest : ∀ c ∈ rest.head?, c = .char '\n') : Opens (.line marker inside) rest

/-- The parts of a text from its beginning to its end. -/
inductive Divides : Text → List Part → Prop
  | nil : Divides [] []
  | cons {part : Part} {rest : Text} {parts : List Part} (hopens : Opens part rest) (h : Divides rest parts) :
      Divides (part.text ++ rest) (part :: parts)

def quoteAfter (quote : Option CodePoint) (c : CodePoint) : Option CodePoint :=
  match quote with
  | none => if isQuote c then some c else none
  | some quote => if c = quote then none else some quote

/-- Wherever no quote is open, no comment begins. -/
def UnmarkedFrom (quote : Option CodePoint) (text : Text) : Prop :=
  ∀ front rest, text = front ++ rest → front.foldl quoteAfter quote = none → ¬ Marked rest

/-- No comment begins outside quotes, counted from the beginning of the text. -/
def Unmarked (text : Text) : Prop :=
  UnmarkedFrom none text

variable {c quote : CodePoint} {text rest rest' value inside marker : Text} {part : Part} {parts parts' : List Part}

/-! ## Marks -/

theorem lineMarkers_eq : lineMarkers = [[.char '-', .char '-'], [.char '/', .char '/'], [.char '#'],
    [.char '－', .char '－'], [.char '—', .char '—']] := by
  rfl

/-- Only the first two characters make a mark. -/
theorem marked_cons_iff : Marked (c :: rest) ↔ c = .char '#' ∨ c = .char '/' ∧ rest.head? = some (.char '*') ∨
    c ∈ Text.ofString "-/－—" ∧ rest.head? = some c := by
  have hsigns : Text.ofString "-/－—" = [.char '-', .char '/', .char '－', .char '—'] := by rfl
  have hmarkers : markers = [.char '/', .char '*'] :: lineMarkers := by rfl
  rw [Marked, hsigns, hmarkers, lineMarkers_eq]
  cases rest with
  | nil => simp [List.cons_prefix_cons, eq_comm]
  | cons d rest =>
    simp only [List.mem_cons, List.not_mem_nil, or_false, exists_eq_or_imp, exists_eq_left, List.cons_prefix_cons,
      List.nil_prefix, and_true, List.head?_cons, Option.some.injEq]
    grind

theorem not_marked_of_isQuote (hquote : isQuote quote = true) : ¬ Marked (quote :: rest) := by
  have hquotes : quote = .char '\'' ∨ quote = .char '"' := by simpa [isQuote] using hquote
  have hsigns : ∀ d ∈ Text.ofString "-/－—", isQuote d = false := by decide
  rw [marked_cons_iff]
  rintro (rfl | ⟨rfl, -⟩ | ⟨hmem, -⟩)
  · cases hquote
  · cases hquote
  · rw [hsigns quote hmem] at hquote
    cases hquote

theorem not_marked (hc : c ∉ marks) : ¬ Marked (c :: rest) := by
  have hsigns : ∀ d ∈ Text.ofString "-/－—", d ∈ marks := by decide
  rw [marked_cons_iff]
  rintro (rfl | ⟨rfl, -⟩ | ⟨hmem, -⟩)
  · exact hc (by decide)
  · exact hc (by decide)
  · exact hc (hsigns c hmem)

/-- The text begins as another one does, or with one of the blanks that comments leave. -/
def Resembles (text other : Text) : Prop :=
  ∀ c ∈ text.head?, c = .char ' ' ∨ c = .char '\n' ∨ other.head? = some c

/-- No mark comes to be where a comment has been. -/
theorem Resembles.not_marked (h : Resembles rest' rest) (hmark : ¬ Marked (c :: rest)) : ¬ Marked (c :: rest') := by
  have hblanks : ∀ d ∈ Text.ofString "*-/－—", d ≠ .char ' ' ∧ d ≠ .char '\n' := by decide
  have hhead : ∀ d ∈ Text.ofString "*-/－—", rest'.head? = some d → rest.head? = some d := by
    intro d hd heq
    obtain ⟨hspace, hbreak⟩ := hblanks d hd
    exact ((h d heq).resolve_left hspace).resolve_left hbreak
  rw [marked_cons_iff] at hmark ⊢
  rintro (hhash | ⟨hslash, hstar⟩ | ⟨hsign, hsame⟩)
  · exact hmark (.inl hhash)
  · exact hmark (.inr (.inl ⟨hslash, hhead _ (by decide) hstar⟩))
  · exact hmark (.inr (.inr ⟨hsign, hhead c (List.mem_cons_of_mem _ hsign) hsame⟩))

theorem Resembles.ne_quote (h : Resembles rest' rest) (hquote : isQuote quote = true)
    (hrest : rest.head? ≠ some quote) : rest'.head? ≠ some quote := by
  intro heq
  obtain rfl | rfl | hsame := h quote heq
  · cases hquote
  · cases hquote
  · exact hrest hsame

/-! ## Dropping comments part by part -/

theorem withoutComments_code (hquote : isQuote c = false) (hmark : ¬ Marked (c :: rest)) :
    withoutCommentsIn .code (c :: rest) = c :: withoutCommentsIn .code rest := by
  rw [marked_cons_iff, not_or, not_or] at hmark
  obtain ⟨hhash, hblock, hdouble⟩ := hmark
  have hstar : ∀ cs, c = .char '/' → rest = .char '*' :: cs → False := by
    rintro cs rfl rfl
    exact hblock ⟨rfl, rfl⟩
  have hpair : ∀ d ∈ Text.ofString "-/－—", ∀ cs, c = d → rest = d :: cs → False := by
    rintro _ hd cs rfl rfl
    exact hdouble ⟨hd, rfl⟩
  rw [withoutCommentsIn, hquote, if_neg Bool.false_ne_true]
  exacts [hstar, hpair '-' (by decide), hpair '/' (by decide), hhash, hpair '－' (by decide), hpair '—' (by decide)]

theorem withoutComments_mark (hmarker : marker ∈ lineMarkers) (rest : Text) :
    withoutCommentsIn .code (marker ++ rest) = withoutCommentsIn .lineComment rest := by
  simp only [lineMarkers, List.mem_cons, List.not_mem_nil, or_false] at hmarker
  obtain rfl | rfl | rfl | rfl | rfl := hmarker <;> rfl

theorem withoutComments_line (hinside : ∀ c ∈ inside, c ≠ .char '\n') (hrest : ∀ c ∈ rest.head?, c = .char '\n') :
    withoutCommentsIn .lineComment (inside ++ rest) = withoutCommentsIn .code rest := by
  induction inside with
  | nil =>
    cases rest with
    | nil => rfl
    | cons c rest =>
      obtain rfl := hrest c rfl
      simp [withoutCommentsIn, isQuote]
  | cons c inside ih =>
    obtain ⟨hc, hinside⟩ := List.forall_mem_cons.mp hinside
    rw [List.cons_append, withoutCommentsIn, if_neg hc, ih hinside]

theorem closes_cons_iff : "*/" <:+: c :: inside ↔
    c = .char '*' ∧ inside.head? = some (.char '/') ∨ "*/" <:+: inside := by
  have hclose : Text.ofString "*/" = [.char '*', .char '/'] := by rfl
  rw [List.infix_cons_iff, hclose, List.cons_prefix_cons]
  cases inside with
  | nil => simp
  | cons d inside => 
    rw [List.cons_prefix_cons, List.head?_cons, Option.some.injEq, eq_comm, eq_comm (b := d)]
    simp

theorem withoutComments_inBlock (h : ¬(c = .char '*' ∧ rest.head? = some (.char '/'))) :
    withoutCommentsIn .blockComment (c :: rest) = withoutCommentsIn .blockComment rest := by
  rw [withoutCommentsIn]
  rintro cs rfl rfl
  exact h ⟨rfl, rfl⟩

/-- A block comment goes on to its first end. -/
theorem withoutComments_block (hinside : ¬ "*/" <:+: inside) (rest : Text) :
    withoutCommentsIn .blockComment (inside ++ ("*/" ++ rest)) = withoutCommentsIn .code rest := by
  induction inside with
  | nil => rfl
  | cons c inside ih =>
    rw [closes_cons_iff, not_or] at hinside
    have hopen : ¬(c = .char '*' ∧ (inside ++ ("*/" ++ rest)).head? = some (.char '/')) := by
      cases inside with
      | nil =>
        rintro ⟨-, h⟩
        cases h
      | cons d inside => exact hinside.1
    rw [List.cons_append, withoutComments_inBlock hopen, ih hinside.2]

theorem withoutComments_openBlock (hinside : ¬ "*/" <:+: inside) : withoutCommentsIn .blockComment inside = [] := by
  induction inside with
  | nil => rfl
  | cons c inside ih =>
    rw [closes_cons_iff, not_or] at hinside
    rw [withoutComments_inBlock hinside.1, ih hinside.2]

/-- A quoted text without its last quote goes on to the end. -/
theorem withoutComments_openQuoted (hquote : isQuote quote = true) (value : Text) :
    withoutCommentsIn (.quoted quote) (Text.doubled quote value) = Text.doubled quote value := by
  induction value with
  | nil => rfl
  | cons c value ih =>
    by_cases hc : c = quote
    · simp [hc, Text.doubled_cons_self, withoutCommentsIn, withoutComments_quote hquote, ih]
    · simp [hc, Text.doubled_cons_ne hc, withoutCommentsIn, ih]

/-- Dropping comments replaces a part by what is left of it. -/
theorem Opens.withoutComments (h : Opens part rest) :
    withoutComments (part.text ++ rest) = part.remains.flatMap Part.text ++ withoutComments rest := by
  cases h with
  | code hquote hmark => exact withoutComments_code hquote hmark
  | quoted hquote _ => simpa [Part.text, Part.remains, SourceText.withoutComments] using kept_quoted hquote _ rest
  | openQuoted hquote =>
    rw [List.append_nil]
    simp [Part.text, Part.remains, SourceText.withoutComments, withoutComments_quote hquote,
      withoutComments_openQuoted hquote, withoutCommentsIn]
  | block hinside =>
    rw [Part.text, List.append_assoc, List.append_assoc]
    exact congrArg (_ :: ·) (withoutComments_block hinside rest)
  | openBlock hinside =>
    rw [Part.text, List.append_nil]
    exact congrArg (_ :: ·) (withoutComments_openBlock hinside)
  | line hmarker hinside hrest =>
    rw [Part.text, List.append_assoc]
    exact (withoutComments_mark hmarker _).trans (withoutComments_line hinside hrest)

theorem Divides.flatMap_text (h : Divides text parts) : parts.flatMap Part.text = text := by
  induction h with
  | nil => rfl
  | cons _ _ ih => rw [List.flatMap_cons, ih]

theorem Opens.resembles (h : Opens part rest) :
    Resembles (SourceText.withoutComments (part.text ++ rest)) (part.text ++ rest) := by
  intro c hc
  rw [h.withoutComments] at hc
  cases h with
  | code _ _ => exact .inr (.inr hc)
  | quoted _ _ => exact .inr (.inr hc)
  | openQuoted _ => exact .inr (.inr hc)
  | block _ => exact .inl (Option.some.inj hc).symm
  | openBlock _ => exact .inl (Option.some.inj hc).symm
  | line _ _ hrest =>
    -- Behind the comment comes the line break, which is code.
    cases rest with
    | nil => cases hc
    | cons d rest =>
      obtain rfl := hrest d rfl
      change c ∈ (withoutCommentsIn .code _).head? at hc
      rw [withoutComments_code (by decide) (not_marked (by decide))] at hc
      exact .inr (.inl (Option.some.inj hc).symm)

/-- What is left of a text begins as the text does, or with a blank where a comment has been. -/
theorem Divides.resembles (h : Divides text parts) : Resembles (SourceText.withoutComments text) text := by
  cases h with
  | nil => exact nofun
  | cons hopens _ => exact hopens.resembles

/-- What is left of a part stands in front of what is left of the text behind it. -/
theorem Opens.divides (h : Opens part rest) (hrest' : Resembles rest' rest) (hnil : rest = [] → rest' = [])
    (hmore : Divides rest' parts) :
    Divides (part.remains.flatMap Part.text ++ rest') (part.remains ++ parts) := by
  have hsingle {left : Part} (hopens : Opens left rest') :
      Divides ([left].flatMap Part.text ++ rest') ([left] ++ parts) := by
    rw [List.flatMap_singleton]
    exact .cons hopens hmore
  have hspace : Opens (.code ' ') rest' := .code (by decide) (not_marked (by decide))
  cases h with
  | code hquote hmark => exact hsingle (.code hquote (hrest'.not_marked hmark))
  | quoted hquote hother => exact hsingle (.quoted hquote (hrest'.ne_quote hquote hother))
  | openQuoted hquote =>
    obtain rfl := hnil rfl
    exact hsingle (.openQuoted hquote)
  | block _ => exact hsingle hspace
  | openBlock _ => exact hsingle hspace
  | line _ _ _ => exact hmore

/-- What is left of a text is divided into what is left of its parts. -/
theorem Divides.withoutComments (h : Divides text parts) :
    Divides (withoutComments text) (parts.flatMap Part.remains) := by
  induction h with
  | nil => exact .nil
  | cons hopens h ih =>
    rw [hopens.withoutComments, List.flatMap_cons]
    apply hopens.divides h.resembles _ ih
    rintro rfl
    rfl

/-! ## Every text has parts -/

theorem takeQuoted_eq_none (h : Lexer.takeQuoted quote text = none) : ∃ value, text = Text.doubled quote value := by
  induction text using List.twoStepInduction with
  | nil => exact ⟨[], rfl⟩
  | singleton c =>
    rw [Lexer.takeQuoted] at h
    split at h
    · cases h
    · next hc => exact ⟨[c], by rw [Text.doubled_cons_ne hc]; rfl⟩
  | cons_cons c d text ih ih' =>
    rw [Lexer.takeQuoted] at h
    split at h
    · next hc =>
      split at h
      · next hd =>
        obtain ⟨value, rfl⟩ := ih (Option.map_eq_none_iff.mp h)
        exact ⟨quote :: value, by rw [hc, hd, Text.doubled_cons_self]⟩
      · cases h
    · next hc =>
      obtain ⟨value, heq⟩ := ih' d (Option.map_eq_none_iff.mp h)
      exact ⟨c :: value, by rw [Text.doubled_cons_ne hc, heq]⟩

theorem exists_close (h : "*/" <:+: text) : ∃ inside rest, text = inside ++ ("*/" ++ rest) ∧ ¬ "*/" <:+: inside := by
  induction text with
  | nil => exact absurd h (by decide)
  | cons c text ih =>
    by_cases hclose : c = .char '*' ∧ text.head? = some (.char '/')
    · obtain ⟨rfl, hhead⟩ := hclose
      obtain ⟨rest, rfl⟩ := List.head?_eq_some_iff.mp hhead
      exact ⟨[], rest, rfl, by decide⟩
    · obtain ⟨inside, rest, rfl, hinside⟩ := ih ((closes_cons_iff.mp h).resolve_left hclose)
      refine ⟨c :: inside, rest, rfl, ?_⟩
      rw [closes_cons_iff]
      rintro (⟨hc, hhead⟩ | hmore)
      · obtain ⟨more, rfl⟩ := List.head?_eq_some_iff.mp hhead
        exact hclose ⟨hc, rfl⟩
      · exact hinside hmore

/-- A text that is not empty begins with a part. -/
theorem exists_opens (c : CodePoint) (text : Text) : ∃ part rest, c :: text = part.text ++ rest ∧ Opens part rest := by
  by_cases hquote : isQuote c = true
  · cases htaken : Lexer.takeQuoted c text with
    | none =>
      obtain ⟨value, rfl⟩ := takeQuoted_eq_none htaken
      exact ⟨.openQuoted c value, [], (List.append_nil _).symm, .openQuoted hquote⟩
    | some taken =>
      obtain ⟨rest, rfl, -, hrest⟩ := Lexer.takeQuoted_eq htaken
      exact ⟨.quoted c taken.1, rest, by simp [Part.text], .quoted hquote hrest⟩
  · by_cases hmark : Marked (c :: text)
    · obtain ⟨marker, hmarker, tail, heq⟩ := hmark
      rw [← heq]
      obtain rfl | hmarker := List.mem_cons.mp hmarker
      · by_cases hclose : "*/" <:+: tail
        · obtain ⟨inside, rest, rfl, hinside⟩ := exists_close hclose
          exact ⟨.block inside, rest, by simp [Part.text], .block hinside⟩
        · exact ⟨.openBlock tail, [], (List.append_nil _).symm, .openBlock hclose⟩
      · refine ⟨.line marker (tail.takeWhile (· ≠ .char '\n')), tail.dropWhile (· ≠ .char '\n'), ?_, .line hmarker ?_ ?_⟩
        · rw [Part.text, List.append_assoc, List.takeWhile_append_dropWhile]
        · intro d hd
          exact of_decide_eq_true (List.all_eq_true.mp List.all_takeWhile d hd)
        · intro d hd
          have hstop := List.head?_dropWhile_not (fun d => decide (d ≠ CodePoint.char '\n')) tail
          rw [hd] at hstop
          simpa using hstop
    · exact ⟨.code c, text, rfl, .code (eq_false_of_ne_true hquote) hmark⟩

theorem Opens.text_ne_nil (h : Opens part rest) : part.text ≠ [] := by
  cases h with
  | line hmarker _ _ =>
    have hmarkers : ∀ marker ∈ lineMarkers, marker ≠ [] := by decide
    exact List.append_ne_nil_of_left_ne_nil (hmarkers _ hmarker) _
  | _ => exact List.cons_ne_nil _ _

theorem exists_divides (text : Text) : ∃ parts, Divides text parts := by
  induction hlength : text.length using Nat.strongRecOn generalizing text with
  | ind length ih =>
    cases text with
    | nil => exact ⟨[], .nil⟩
    | cons c text =>
      obtain ⟨part, rest, heq, hopens⟩ := exists_opens c text
      have hpositive := List.length_pos_iff.mpr hopens.text_ne_nil
      have hshorter : rest.length < length := by
        rw [← hlength, heq, List.length_append]
        omega
      obtain ⟨parts, hparts⟩ := ih rest.length hshorter rest rfl
      exact ⟨part :: parts, heq ▸ .cons hopens hparts⟩

/-! ## No text has different parts -/

def Part.region : Part → Region
  | .code _ => .code
  | .quoted quote _ => .quoted quote
  | .openQuoted quote _ => .quoted quote
  | .block _ => .blockComment
  | .openBlock _ => .blockComment
  | .line _ _ => .lineComment

instance : DecidablePred Marked :=
  fun _ => inferInstanceAs (Decidable (∃ marker ∈ markers, _))

def firstRegion : Text → Region
  | [] => .code
  | c :: cs =>
      if isQuote c then .quoted c
      else if "/*" <+: c :: cs then .blockComment
      else if Marked (c :: cs) then .lineComment
      else .code

theorem firstRegion_line (hmarker : marker ∈ lineMarkers) (rest : Text) :
    firstRegion (marker ++ rest) = .lineComment := by
  have hmarked : Marked (marker ++ rest) := ⟨marker, List.mem_cons_of_mem _ hmarker, List.prefix_append marker rest⟩
  have hclose : Text.ofString "/*" = [.char '/', .char '*'] := by rfl
  simp only [lineMarkers_eq, List.mem_cons, List.not_mem_nil, or_false] at hmarker
  obtain rfl | rfl | rfl | rfl | rfl := hmarker
  all_goals
    rw [List.cons_append, firstRegion, if_neg (by decide), if_neg (by simp [hclose])]
    exact if_pos hmarked

theorem Opens.region_eq (h : Opens part rest) : part.region = firstRegion (part.text ++ rest) := by
  cases h with
  | @code c _ hquote hmark =>
    have hblock : ¬ "/*" <+: c :: rest := fun hprefix => hmark ⟨_, List.mem_cons_self, hprefix⟩
    simp [Part.region, Part.text, firstRegion, hquote, hmark, hblock]
  | quoted hquote _ => simp [Part.region, Part.text, firstRegion, hquote]
  | openQuoted hquote => simp [Part.region, Part.text, firstRegion, hquote]
  | block _ => rfl
  | openBlock _ => rfl
  | line hmarker _ _ => rw [Part.text, List.append_assoc, firstRegion_line hmarker, Part.region]

theorem takeQuoted_open (quote : CodePoint) (value : Text) :
    Lexer.takeQuoted quote (Text.doubled quote value) = none := by
  induction value with
  | nil => rfl
  | cons c value ih =>
    by_cases hc : c = quote
    · rw [hc, Text.doubled_cons_self, Lexer.takeQuoted, if_pos rfl, if_pos rfl, ih]
      rfl
    · rw [Text.doubled_cons_ne hc]
      cases hmore : Text.doubled quote value with
      | nil => rw [Lexer.takeQuoted, if_neg hc]
      | cons d more =>
        rw [hmore] at ih
        rw [Lexer.takeQuoted, if_neg hc, ih]
        rfl

theorem doubled_inj {value' : Text} (h : Text.doubled quote value = Text.doubled quote value') : value = value' := by
  have hend : ([] : Text).head? ≠ some quote := nofun
  have htaken := Lexer.takeQuoted_doubled quote value hend
  rw [h, Lexer.takeQuoted_doubled quote value' hend] at htaken
  exact (Prod.mk.inj (Option.some.inj htaken)).1.symm

theorem close_infix (inside rest : Text) : ("*/" : Text) <:+: inside ++ (("*/" : Text) ++ rest) :=
  ⟨inside, rest, List.append_assoc ..⟩

theorem no_close_between {between : Text} (h : ("*/" : Text) ++ rest = between ++ (("*/" : Text) ++ rest'))
    (hbetween : ¬ "*/" <:+: between) : between = [] := by
  match between with
  | [] => rfl
  | [c] => cases (List.cons.inj h).2
  | c :: d :: between =>
    obtain ⟨rfl, hmore⟩ := List.cons.inj h
    obtain ⟨rfl, -⟩ := List.cons.inj hmore
    exact absurd ⟨[], between, rfl⟩ hbetween

/-- The first end of a block comment is at one place. -/
theorem close_unique {inside' : Text} (hinside : ¬ "*/" <:+: inside) (hinside' : ¬ "*/" <:+: inside')
    (h : inside ++ (("*/" : Text) ++ rest) = inside' ++ (("*/" : Text) ++ rest')) : inside = inside' := by
  obtain ⟨between, rfl, heq⟩ | ⟨between, rfl, heq⟩ := List.append_eq_append_iff.mp h
  · have hnone := no_close_between heq fun hclose => hinside' (hclose.trans (List.suffix_append _ _).isInfix)
    rw [hnone, List.append_nil]
  · have hnone := no_close_between heq fun hclose => hinside (hclose.trans (List.suffix_append _ _).isInfix)
    rw [hnone, List.append_nil]

theorem takeWhile_line (hinside : ∀ c ∈ inside, c ≠ .char '\n') (hrest : ∀ c ∈ rest.head?, c = .char '\n') :
    (inside ++ rest).takeWhile (· ≠ .char '\n') = inside := by
  rw [List.takeWhile_append_of_pos fun c hc => decide_eq_true (hinside c hc)]
  cases rest with
  | nil => exact List.append_nil _
  | cons c rest => rw [List.takeWhile_cons_of_neg (by simp [hrest c rfl]), List.append_nil]

theorem line_unique {marker' inside' : Text} (hmarker : marker ∈ lineMarkers) (hmarker' : marker' ∈ lineMarkers)
    (hinside : ∀ c ∈ inside, c ≠ .char '\n') (hinside' : ∀ c ∈ inside', c ≠ .char '\n')
    (hrest : ∀ c ∈ rest.head?, c = .char '\n') (hrest' : ∀ c ∈ rest'.head?, c = .char '\n')
    (h : marker ++ (inside ++ rest) = marker' ++ (inside' ++ rest')) : marker = marker' ∧ inside = inside' := by
  have hmarkers : ∀ marker ∈ lineMarkers, marker ≠ [] ∧
      ∀ other ∈ lineMarkers, marker.head? = other.head? → marker = other := by
    decide
  obtain ⟨hne, hfirst⟩ := hmarkers marker hmarker
  have hhead := congrArg List.head? h
  rw [List.head?_append_of_ne_nil _ hne, List.head?_append_of_ne_nil _ (hmarkers marker' hmarker').1] at hhead
  obtain rfl := hfirst marker' hmarker' hhead
  rw [List.append_cancel_left_eq] at h
  have htaken := takeWhile_line hinside hrest
  rw [h, takeWhile_line hinside' hrest'] at htaken
  exact ⟨rfl, htaken.symm⟩

theorem Opens.unique {part' : Part} (h : Opens part rest) (h' : Opens part' rest')
    (heq : part.text ++ rest = part'.text ++ rest') : part = part' := by
  have hregion : part.region = part'.region := by rw [h.region_eq, h'.region_eq, heq]
  cases h with
  | code _ _ =>
    cases h' with
    | code _ _ => exact congrArg Part.code (List.cons.inj heq).1
    | _ => cases hregion
  | @quoted quote value _ hquote hrest =>
    have htaken := Lexer.takeQuoted_doubled quote value hrest
    cases h' with
    | @quoted _ value' _ _ hrest' =>
      cases hregion
      have heq : Text.doubled quote value ++ quote :: rest = Text.doubled quote value' ++ quote :: rest' := by
        simpa [Part.text] using heq
      rw [heq, Lexer.takeQuoted_doubled quote value' hrest'] at htaken
      rw [(Prod.mk.inj (Option.some.inj htaken)).1]
    | @openQuoted _ value' _ =>
      cases hregion
      have heq : Text.doubled quote value ++ quote :: rest = Text.doubled quote value' := by
        simpa [Part.text] using heq
      rw [heq, takeQuoted_open] at htaken
      cases htaken
    | _ => cases hregion
  | @openQuoted quote value _ =>
    cases h' with
    | @quoted _ value' _ _ hrest' =>
      cases hregion
      have htaken := Lexer.takeQuoted_doubled quote value' hrest'
      have heq : Text.doubled quote value = Text.doubled quote value' ++ quote :: rest' := by
        simpa [Part.text] using heq
      rw [← heq, takeQuoted_open] at htaken
      cases htaken
    | openQuoted _ =>
      cases hregion
      rw [List.append_nil, List.append_nil] at heq
      rw [doubled_inj (List.cons.inj heq).2]
    | _ => cases hregion
  | block hinside =>
    rw [Part.text, List.append_assoc, List.append_assoc] at heq
    cases h' with
    | block hinside' =>
      rw [Part.text, List.append_assoc, List.append_assoc, List.append_cancel_left_eq] at heq
      rw [close_unique hinside hinside' heq]
    | openBlock hopen =>
      rw [Part.text, List.append_nil, List.append_cancel_left_eq] at heq
      exact absurd (heq ▸ close_infix _ _) hopen
    | _ => cases hregion
  | openBlock hopen =>
    rw [Part.text, List.append_nil] at heq
    cases h' with
    | block hinside' =>
      rw [Part.text, List.append_assoc, List.append_assoc, List.append_cancel_left_eq] at heq
      exact absurd (heq ▸ close_infix _ _) hopen
    | openBlock _ =>
      rw [Part.text, List.append_nil, List.append_cancel_left_eq] at heq
      rw [heq]
    | _ => cases hregion
  | line hmarker hinside hrest =>
    cases h' with
    | line hmarker' hinside' hrest' =>
      rw [Part.text, Part.text, List.append_assoc, List.append_assoc] at heq
      obtain ⟨rfl, rfl⟩ := line_unique hmarker hmarker' hinside hinside' hrest hrest' heq
      rfl
    | _ => cases hregion

theorem Divides.unique (h : Divides text parts) (h' : Divides text parts') : parts = parts' := by
  induction h generalizing parts' with
  | nil =>
    generalize hempty : ([] : Text) = empty at h'
    cases h' with
    | nil => rfl
    | cons hopens _ => exact absurd (List.append_eq_nil_iff.mp hempty.symm).1 hopens.text_ne_nil
  | @cons part rest parts hopens _ ih =>
    generalize htext : part.text ++ rest = text at h'
    cases h' with
    | nil => exact absurd (List.append_eq_nil_iff.mp htext).1 hopens.text_ne_nil
    | cons hopens' hmore =>
      obtain rfl := hopens.unique hopens' htext
      rw [List.append_cancel_left_eq] at htext
      subst htext
      rw [ih hmore]

/-! ## Marks outside quotes -/

theorem unmarkedFrom_nil (quote : Option CodePoint) : UnmarkedFrom quote [] := by
  intro front rest heq _
  obtain ⟨rfl, rfl⟩ := List.append_eq_nil_iff.mp heq.symm
  decide

theorem unmarkedFrom_cons_iff {quote : Option CodePoint} : UnmarkedFrom quote (c :: text) ↔
    (quote = none → ¬ Marked (c :: text)) ∧ UnmarkedFrom (quoteAfter quote c) text := by
  constructor
  · intro h
    exact ⟨fun hnone => h [] _ rfl hnone, fun front rest heq => h (c :: front) rest (heq ▸ rfl)⟩
  · rintro ⟨hfirst, hmore⟩ front rest heq hfront
    cases front with
    | nil =>
      obtain rfl : c :: text = rest := heq
      exact hfirst hfront
    | cons d front =>
      obtain ⟨rfl, rfl⟩ := List.cons.inj heq
      exact hmore front rest rfl hfront

theorem unmarked_code (hquote : isQuote c = false) :
    Unmarked (c :: text) ↔ ¬ Marked (c :: text) ∧ Unmarked text := by
  have hafter : quoteAfter none c = none := by rw [quoteAfter, hquote]; rfl
  rw [Unmarked, unmarkedFrom_cons_iff, hafter]
  exact and_congr_left' ⟨fun h => h rfl, fun h _ => h⟩

theorem unmarked_quote (hquote : isQuote quote = true) :
    Unmarked (quote :: text) ↔ UnmarkedFrom (some quote) text := by
  have hafter : quoteAfter none quote = some quote := by rw [quoteAfter, if_pos hquote]
  rw [Unmarked, unmarkedFrom_cons_iff, hafter]
  exact and_iff_right fun _ => not_marked_of_isQuote hquote

/-- A quote in a quoted text ends it and begins another one at once. -/
theorem unmarkedFrom_doubled (hquote : isQuote quote = true) (value : Text) :
    UnmarkedFrom (some quote) (Text.doubled quote value ++ text) ↔ UnmarkedFrom (some quote) text := by
  induction value with
  | nil => exact Iff.rfl
  | cons c value ih =>
    by_cases hc : c = quote
    · have hclose : quoteAfter (some quote) quote = none := if_pos rfl
      rw [hc, Text.doubled_cons_self, List.cons_append, List.cons_append, unmarkedFrom_cons_iff, hclose]
      refine (and_iff_right nofun).trans ((unmarked_quote hquote).trans ih)
    · have hinside : quoteAfter (some quote) c = some quote := if_neg hc
      rw [Text.doubled_cons_ne hc, List.cons_append, unmarkedFrom_cons_iff, hinside]
      exact (and_iff_right nofun).trans ih

theorem not_unmarked (h : Marked text) : ¬ Unmarked text :=
  fun hunmarked => hunmarked [] text rfl rfl h

def Part.Kept (part : Part) : Prop :=
  part.remains = [part]

theorem Part.kept_of_mem_remains {left : Part} (h : left ∈ part.remains) : left.Kept := by
  cases part with
  | line _ _ => cases h
  | _ =>
    obtain rfl := List.mem_singleton.mp h
    rfl

/-- A comment is marked, and of other parts it depends on the text behind them whether there is a mark. -/
theorem Opens.unmarked_iff (h : Opens part rest) : Unmarked (part.text ++ rest) ↔ part.Kept ∧ Unmarked rest := by
  have hcomment (hmark : Marked (part.text ++ rest)) (hkept : ¬ part.Kept) :
      Unmarked (part.text ++ rest) ↔ part.Kept ∧ Unmarked rest :=
    iff_of_false (not_unmarked hmark) fun h => hkept h.1
  cases h with
  | code hquote hmark =>
    refine (unmarked_code hquote).trans (and_congr_left' ?_)
    exact iff_of_true hmark rfl
  | @quoted quote value _ hquote _ =>
    have hclose : quoteAfter (some quote) quote = none := if_pos rfl
    rw [Part.text, List.cons_append, unmarked_quote hquote, List.append_assoc, unmarkedFrom_doubled hquote,
      List.singleton_append, unmarkedFrom_cons_iff, hclose]
    exact and_congr_left' (iff_of_true nofun rfl)
  | openQuoted hquote =>
    rw [Part.text, List.cons_append, unmarked_quote hquote, unmarkedFrom_doubled hquote]
    exact iff_of_true (unmarkedFrom_nil _) ⟨rfl, unmarkedFrom_nil _⟩
  | block _ => exact hcomment ⟨_, List.mem_cons_self, List.prefix_append _ _⟩ (by simp [Part.Kept, Part.remains])
  | openBlock _ => exact hcomment ⟨_, List.mem_cons_self, List.prefix_append _ _⟩ (by simp [Part.Kept, Part.remains])
  | line hmarker _ _ =>
    rw [Part.text, List.append_assoc] at hcomment ⊢
    exact hcomment ⟨_, List.mem_cons_of_mem _ hmarker, List.prefix_append _ _⟩ (by simp [Part.Kept, Part.remains])

/-- A text is unmarked if it has no comments. -/
theorem Divides.unmarked_iff (h : Divides text parts) : Unmarked text ↔ ∀ part ∈ parts, part.Kept := by
  induction h with
  | nil => exact iff_of_true (unmarkedFrom_nil none) (List.forall_mem_nil _)
  | cons hopens _ ih => rw [hopens.unmarked_iff, ih, List.forall_mem_cons]

/-- What is left of a text has no comments. -/
theorem unmarked_withoutComments (text : Text) : Unmarked (withoutComments text) := by
  obtain ⟨parts, h⟩ := exists_divides text
  rw [h.withoutComments.unmarked_iff]
  intro left hleft
  obtain ⟨part, -, hmem⟩ := List.mem_flatMap.mp hleft
  exact Part.kept_of_mem_remains hmem

/-- A text without comments is left as it is. -/
theorem withoutComments_of_unmarked (h : Unmarked text) : withoutComments text = text := by
  obtain ⟨parts, hparts⟩ := exists_divides text
  have hkept : parts.flatMap Part.remains = parts := by
    rw [hparts.unmarked_iff] at h
    exact (List.flatMap_congr h).trans (List.flatMap_singleton' parts)
  rw [← hparts.withoutComments.flatMap_text, hkept, hparts.flatMap_text]

def Part.isQuoted : Part → Bool
  | .quoted _ _ => true
  | .openQuoted _ _ => true
  | _ => false

theorem Part.filter_remains (part : Part) : part.remains.filter Part.isQuoted = [part].filter Part.isQuoted := by
  cases part <;> rfl

/-- Dropping comments a second time changes nothing, and neither does it change a text that has no mark outside
quotes. Every text has its one division into parts: what is left of it is divided into what is left of them, with
the same quoted texts in the same order, and has no mark outside quotes. -/
theorem withoutComments_parts (text : Text) :
    withoutComments (withoutComments text) = withoutComments text ∧
    (Unmarked text ↔ withoutComments text = text) ∧
    (∃ parts, Divides text parts ∧ (∀ others, Divides text others → others = parts) ∧
      Divides (withoutComments text) (parts.flatMap Part.remains) ∧
      (parts.flatMap Part.remains).filter Part.isQuoted = parts.filter Part.isQuoted) ∧
    Unmarked (withoutComments text) := by
  have hunmarked := unmarked_withoutComments text
  refine ⟨withoutComments_of_unmarked hunmarked, ⟨withoutComments_of_unmarked, ?_⟩, ?_, hunmarked⟩
  · intro heq
    rwa [heq] at hunmarked
  · obtain ⟨parts, h⟩ := exists_divides text
    refine ⟨parts, h, fun others hothers => hothers.unique h, h.withoutComments, ?_⟩
    rw [List.filter_flatMap, List.flatMap_congr fun part _ => Part.filter_remains part, ← List.filter_flatMap,
      List.flatMap_singleton']

end SourceText

end SnapshotSql
