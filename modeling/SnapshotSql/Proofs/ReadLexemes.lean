import SnapshotSql.Proofs.ParserRules
import SnapshotSql.Proofs.QueryText

/-! # Reading given lexemes

A parser reads given lexemes as a value if it takes just them from the front of the tokens and answers the
value. What follows them may matter to the parser, as for a list that might go on, so a property of it is
part of the notion. The rules follow the steps of a parser; the parsers for operands, lists and tests are
shown to read what is printed for their values.
-/
namespace SnapshotSql

namespace Parser

variable {α β : Type} {parser : Parser α} {next : α → Parser β} {value : α} {answer : β}
  {lexeme : Lexeme} {lexemes lexemes' : List Lexeme} {follow follow' : List Lexeme → Prop}

/-- On tokens with the given lexemes and others behind them, the parser takes the former and answers the
value, if what follows them has the property. -/
def Parses (parser : Parser α) (lexemes : List Lexeme) (value : α) (follow : List Lexeme → Prop) : Prop :=
  ∀ tokens rest : List Token, tokens.map (·.lexeme) = lexemes → follow (rest.map (·.lexeme)) →
    parser (tokens ++ rest) = .ok (value, rest)

def firstOf (lexemes : List Lexeme) : Lexeme :=
  lexemes.headD .endOfInput

theorem lexeme_headD (tokens : List Token) :
    (tokens.headD lastToken).lexeme = firstOf (tokens.map (·.lexeme)) := by
  cases tokens <;> rfl

theorem Parses.bind (h : Parses parser lexemes value follow)
    (hnext : Parses (next value) lexemes' answer follow')
    (hfollow : ∀ more, follow' more → follow (lexemes' ++ more)) :
    Parses (parser >>= next) (lexemes ++ lexemes') answer follow' := by
  intro tokens rest htokens hrest
  obtain ⟨front, back, rfl, hfront, hback⟩ := List.map_eq_append_iff.mp htokens
  have hfirst := h front (back ++ rest) hfront (by rw [List.map_append, hback]; exact hfollow _ hrest)
  rw [List.append_assoc, run_bind hfirst]
  exact hnext back rest hback hrest

theorem Parses.mono (h : Parses parser lexemes value follow)
    (hfollow : ∀ more, follow' more → follow more) :
    Parses parser lexemes value follow' :=
  fun tokens rest htokens hrest => h tokens rest htokens (hfollow _ hrest)

theorem parses_pure : Parses (pure value) [] value follow := by
  intro tokens rest htokens _
  rw [List.map_eq_nil_iff.mp htokens]
  rfl

/-- A parser whose answer is wrapped up. -/
theorem Parses.make (h : Parses parser lexemes value follow) (make : α → β) :
    Parses (parser >>= fun value => pure (make value)) lexemes (make value) follow := by
  have hmade : Parses (parser >>= fun value => pure (make value)) (lexemes ++ []) (make value) follow :=
    h.bind parses_pure fun _ hmore => hmore
  rwa [List.append_nil] at hmade

theorem parses_current {next : Token → Parser β}
    (h : ∀ token, (∃ more, follow more ∧ token.lexeme = firstOf (lexemes ++ more)) →
      Parses (next token) lexemes answer follow) :
    Parses (current >>= next) lexemes answer follow := by
  intro tokens rest htokens hrest
  refine h ((tokens ++ rest).headD lastToken) ⟨_, hrest, ?_⟩ tokens rest htokens hrest
  rw [lexeme_headD, List.map_append, htokens]

theorem parses_following {next : Token → Parser β}
    (h : ∀ token, (∃ more, follow more ∧ token.lexeme = firstOf (lexemes ++ more)) →
      Parses (next token) (lexeme :: lexemes) answer follow) :
    Parses (following >>= next) (lexeme :: lexemes) answer follow := by
  intro tokens rest htokens hrest
  refine h (((tokens ++ rest).drop 1).headD lastToken) ⟨_, hrest, ?_⟩ tokens rest htokens hrest
  obtain ⟨token, tail, rfl, -, htail⟩ := List.map_eq_cons_iff.mp htokens
  rw [lexeme_headD, List.cons_append, List.drop_one, List.tail_cons, List.map_append, htail]

theorem parses_advance {next : Unit → Parser β} (hlexeme : lexeme ≠ .endOfInput)
    (h : Parses (next ()) lexemes answer follow) :
    Parses (advance >>= next) (lexeme :: lexemes) answer follow := by
  intro tokens rest htokens hrest
  obtain ⟨token, tail, rfl, htoken, htail⟩ := List.map_eq_cons_iff.mp htokens
  rw [List.cons_append, run_bind (run_advance (htoken ▸ hlexeme))]
  exact h tail rest htail hrest

theorem parses_get {next : List Token → Parser β}
    (h : ∀ tokens, (∃ more, follow more ∧ tokens.map (·.lexeme) = lexemes ++ more) →
      Parses (next tokens) lexemes answer follow) :
    Parses (get >>= next) lexemes answer follow := by
  intro tokens rest htokens hrest
  refine h (tokens ++ rest) ⟨_, hrest, ?_⟩ tokens rest htokens hrest
  rw [List.map_append, htokens]

/-- What is asked of the current token is asked of the first lexeme. -/
theorem parses_current_cons {next : Token → Parser β}
    (h : ∀ token, token.lexeme = lexeme → Parses (next token) (lexeme :: lexemes) answer follow) :
    Parses (current >>= next) (lexeme :: lexemes) answer follow :=
  parses_current fun token ⟨_, _, htoken⟩ => h token htoken

theorem acceptIf_parses {test : Lexeme → Bool} (htest : test lexeme = true)
    (hlexeme : lexeme ≠ .endOfInput) : Parses (acceptIf test) [lexeme] true follow :=
  parses_current_cons fun token htoken => by
    rw [htoken, if_pos htest]
    exact parses_advance hlexeme parses_pure

theorem parses_accepted {test : Lexeme → Bool} {next : Bool → Parser β} (htest : test lexeme = true)
    (hlexeme : lexeme ≠ .endOfInput) (h : Parses (next true) lexemes answer follow) :
    Parses (acceptIf test >>= next) (lexeme :: lexemes) answer follow := by
  have haccepted : Parses (acceptIf test) [lexeme] true fun _ => True := acceptIf_parses htest hlexeme
  exact haccepted.bind h fun _ _ => trivial

theorem acceptIf_parses_nil {test : Lexeme → Bool} :
    Parses (acceptIf test) [] false fun more => test (firstOf more) = false :=
  parses_current fun token ⟨more, hmore, htoken⟩ => by
    have hfalse : test token.lexeme = false := htoken ▸ hmore
    rw [hfalse]
    exact parses_pure

theorem parses_declined {test : Lexeme → Bool} {next : Bool → Parser β}
    (htest : ∀ more, follow more → test (firstOf (lexemes ++ more)) = false)
    (h : Parses (next false) lexemes answer follow) :
    Parses (acceptIf test >>= next) lexemes answer follow :=
  acceptIf_parses_nil.bind h htest

/-! ## Lexemes that are not read -/

/-- On tokens with just the given lexemes, the parser answers nothing. -/
def Refuses (parser : Parser α) (lexemes : List Lexeme) : Prop :=
  ∀ tokens : List Token, tokens.map (·.lexeme) = lexemes → ∀ step, parser tokens ≠ .ok step

theorem refuses_reject {error : SqlError} : Refuses (reject error : Parser α) lexemes := by
  intro tokens _ step h
  cases h

theorem Refuses.bind (h : Refuses parser lexemes) : Refuses (parser >>= next) lexemes := by
  intro tokens htokens step hrun
  obtain ⟨value, rest, hfirst, -⟩ := bind_eq_ok.mp hrun
  exact h tokens htokens (value, rest) hfirst

/-- What stands behind the lexemes that a first parser reads is not read by the next one. -/
theorem Parses.refuses_bind (h : Parses parser lexemes value follow) (hfollow : follow lexemes')
    (hnext : Refuses (next value) lexemes') : Refuses (parser >>= next) (lexemes ++ lexemes') := by
  intro tokens htokens step hrun
  obtain ⟨front, back, rfl, hfront, hback⟩ := List.map_eq_append_iff.mp htokens
  have hfirst := h front back hfront (by rw [hback]; exact hfollow)
  rw [run_bind hfirst] at hrun
  exact hnext back hback step hrun

theorem refuses_current {next : Token → Parser β}
    (h : ∀ token, token.lexeme = firstOf lexemes → Refuses (next token) lexemes) :
    Refuses (current >>= next) lexemes := by
  intro tokens htokens
  exact h (tokens.headD lastToken) (by rw [lexeme_headD, htokens]) tokens htokens

theorem refuses_following {next : Token → Parser β}
    (h : ∀ token, token.lexeme = firstOf lexemes → Refuses (next token) (lexeme :: lexemes)) :
    Refuses (following >>= next) (lexeme :: lexemes) := by
  intro tokens htokens
  obtain ⟨token, tail, rfl, htoken, htail⟩ := List.map_eq_cons_iff.mp htokens
  exact h (tail.headD lastToken) (by rw [lexeme_headD, htail]) (token :: tail) htokens

theorem refuses_complain {complaint : Complaint} : Refuses (complain complaint : Parser α) lexemes :=
  refuses_current fun _ _ => refuses_reject

/-- A lexeme that has to come first and does not. -/
theorem refuses_expect {test : Lexeme → Bool} {complaint : Complaint} (htest : test (firstOf lexemes) = false) :
    Refuses (acceptIf test >>= fun accepted => if accepted then pure () else complain complaint) lexemes :=
  acceptIf_parses_nil.refuses_bind htest refuses_complain

/-! ## Operands -/

/-- What stands behind an operand does not make a function call of it. -/
def NoCall (more : List Lexeme) : Prop :=
  firstOf more ≠ .symbol .openParen

theorem literal_parses (value : Scalar) :
    Parses Parser.operand value.lexemes (.literal value) follow := by
  have hsigned : ∀ number : Number,
      Parses Parser.operand [.symbol .minus, .number number] (.literal (negate number).toScalar) follow := by
    intro number
    refine parses_current_cons fun token htoken => ?_
    rw [htoken]
    refine parses_following fun token ⟨_, _, htoken⟩ => ?_
    have hnumber : token.lexeme = .number number := htoken
    rw [hnumber]
    exact parses_advance (by simp) (parses_advance (by simp) parses_pure)
  have hunsigned : ∀ number : Number,
      Parses Parser.operand [.number number] (.literal number.toScalar) follow := by
    intro number
    refine parses_current_cons fun token htoken => ?_
    rw [htoken]
    exact parses_advance (by simp) parses_pure
  cases value with
  | null =>
    refine parses_current_cons fun token htoken => ?_
    rw [htoken]
    exact parses_advance (by simp) parses_pure
  | bool value =>
    refine parses_current_cons fun token htoken => ?_
    rw [htoken]
    cases value
    · exact parses_advance (by simp) parses_pure
    · exact parses_advance (by simp) parses_pure
  | int value =>
    rw [Scalar.lexemes]
    split
    · simpa [negate, Number.toScalar] using hsigned (.int (-value))
    · exact hunsigned (.int value)
  | float value =>
    cases value with
    | finite negative units h =>
      cases negative with
      | true => exact hsigned (.float (.finite false units h))
      | false => exact hunsigned (.float (.finite false units h))
    | infinite negative => exact hunsigned (.float (.infinite negative))
    | nan => exact hunsigned (.float .nan)
  | text value =>
    refine parses_current_cons fun token htoken => ?_
    rw [htoken]
    exact parses_advance (by simp) parses_pure

theorem operand_parses (operand : Operand) : Parses Parser.operand operand.lexemes operand NoCall := by
  cases operand with
  | column name =>
    refine parses_current_cons fun token htoken => ?_
    rw [htoken]
    refine parses_advance nofun (parses_current fun token ⟨more, hmore, htoken⟩ => ?_)
    rw [if_neg (htoken ▸ hmore)]
    exact parses_pure
  | literal value => exact literal_parses value

/-! ## Expected words and signs -/

theorem parses_expectSymbol (symbol : Symbol) (what : Text) {next : Unit → Parser β}
    (h : Parses (next ()) lexemes answer follow) :
    Parses (expectSymbol symbol what >>= next) (.symbol symbol :: lexemes) answer follow := by
  have hexpect : Parses (expectSymbol symbol what) [.symbol symbol] () fun _ => True :=
    parses_accepted (by simp) nofun parses_pure
  exact hexpect.bind h fun _ _ => trivial

theorem parses_expectKeyword (word : String) {next : Unit → Parser β}
    (h : Parses (next ()) lexemes answer follow) :
    Parses (expectKeyword word >>= next) (.keyword word :: lexemes) answer follow := by
  have hexpect : Parses (expectKeyword word) [.keyword word] () fun _ => True :=
    parses_accepted (by simp) nofun parses_pure
  exact hexpect.bind h fun _ _ => trivial

theorem expectName_parses (name what : Text) : Parses (expectName what) [.name name] name follow :=
  parses_current_cons fun token htoken => by
    rw [htoken]
    exact parses_advance nofun parses_pure

theorem parses_expectName (name what : Text) {next : Text → Parser β}
    (h : Parses (next name) lexemes answer follow) :
    Parses (expectName what >>= next) (.name name :: lexemes) answer follow := by
  have hname : Parses (expectName what) [.name name] name fun _ => True := expectName_parses name what
  exact hname.bind h fun _ _ => trivial

/-- Whether a word is there is told if no such word stands behind it. -/
theorem parses_wordIf {word : String} (present : Bool) {next : Bool → Parser β}
    (hother : ∀ more, follow more → firstOf (lexemes ++ more) ≠ .keyword word)
    (h : Parses (next present) lexemes answer follow) :
    Parses (acceptKeyword word >>= next) (wordIf word present ++ lexemes) answer follow := by
  cases present with
  | true => exact parses_accepted (by simp) nofun h
  | false => exact parses_declined (fun more hmore => by simpa [wordIf] using hother more hmore) h

/-! ## Lists -/

theorem length_le_flatMap (items : List α) (lexeme : Lexeme) (lexemesOf : α → List Lexeme) :
    items.length ≤ (items.flatMap fun item => lexeme :: lexemesOf item).length := by
  induction items with
  | nil => exact Nat.zero_le _
  | cons item items ih =>
    simp only [List.flatMap_cons, List.length_cons, List.length_append]
    omega

section
variable {lexemesOf : α → List Lexeme} (hcomma : ∀ more, follow (.symbol .comma :: more))
  (hend : ∀ more, follow' more → follow more ∧ firstOf more ≠ .symbol .comma)
include hcomma hend

theorem follow_items (items : List α) {more : List Lexeme} (hmore : follow' more) :
    follow (items.flatMap (fun item => .symbol .comma :: lexemesOf item) ++ more) := by
  cases items with
  | nil => exact (hend more hmore).1
  | cons item items => exact hcomma _

theorem moreItems_parses {items : List α} {fuel : Nat} (hfuel : items.length ≤ fuel)
    (hitems : ∀ item ∈ items, Parses parser (lexemesOf item) item follow) :
    Parses (moreItems parser fuel) (items.flatMap fun item => .symbol .comma :: lexemesOf item) items
      follow' := by
  induction items generalizing fuel with
  | nil =>
    cases fuel with
    | zero => exact parses_pure
    | succ fuel => exact parses_declined (fun more hmore => by simpa using (hend more hmore).2) parses_pure
  | cons item items ih =>
    obtain ⟨hitem, hrest⟩ := List.forall_mem_cons.mp hitems
    cases fuel with
    | zero => cases hfuel
    | succ fuel =>
      have hmore := (ih (Nat.le_of_succ_le_succ hfuel) hrest).make (item :: ·)
      exact parses_accepted (by simp) nofun (hitem.bind hmore fun _ => follow_items hcomma hend items)

theorem commaSeparated_parses {item : α} {items : List α}
    (hitems : ∀ other ∈ item :: items, Parses parser (lexemesOf other) other follow) :
    Parses (commaSeparated parser) (separated lexemesOf (item :: items)) (item :: items) follow' := by
  obtain ⟨hitem, hrest⟩ := List.forall_mem_cons.mp hitems
  refine hitem.bind (parses_get fun tokens ⟨more, _, htokens⟩ => ?_) fun _ hmore =>
    follow_items hcomma hend items hmore
  have hfuel : items.length ≤ tokens.length := by
    have hlength := congrArg List.length htokens
    have hitems := length_le_flatMap items (.symbol .comma) lexemesOf
    rw [List.length_map, List.length_append] at hlength
    omega
  exact (moreItems_parses hcomma hend hfuel hrest).make (item :: ·)

end

/-- A list in front of a closing parenthesis. -/
theorem commaSeparated_parses_closed {lexemesOf : α → List Lexeme} {items : List α} (hne : items ≠ [])
    (hitems : ∀ item ∈ items, Parses parser (lexemesOf item) item fun _ => True) :
    Parses (commaSeparated parser) (separated lexemesOf items) items (firstOf · = .symbol .closeParen) := by
  obtain ⟨item, items, rfl⟩ := List.exists_cons_of_ne_nil hne
  have hend : ∀ more, firstOf more = .symbol .closeParen → True ∧ firstOf more ≠ .symbol .comma := by
    intro more hmore
    simp [hmore]
  exact commaSeparated_parses (fun _ => trivial) hend hitems

/-- Names in parentheses and what is read behind them. -/
theorem parses_nameList {next : List Text → Parser β} (what : Text) {names : List Text} (hne : names ≠ [])
    (h : Parses (next names) lexemes answer follow) :
    Parses (nameList what >>= next)
      (.symbol .openParen :: (separated (fun name => [.name name]) names ++ .symbol .closeParen :: lexemes)) answer
      follow := by
  have hnames := commaSeparated_parses_closed hne fun name _ => expectName_parses name what
  have hclose : Parses (expectSymbol .closeParen ("')' after " ++ what) >>= fun _ => pure names)
      [.symbol .closeParen] names fun _ => True := parses_expectSymbol _ _ parses_pure
  have hlist : Parses (nameList what)
      (.symbol .openParen :: (separated (fun name => [.name name]) names ++ [.symbol .closeParen])) names
      fun _ => True := parses_expectSymbol _ _ (hnames.bind hclose fun _ _ => rfl)
  simpa using hlist.bind h fun _ _ => trivial

/-! ## Tests -/

end Parser

/-- A literal or a column begins with no parenthesis and no SELECT. -/
theorem Operand.exists_first (operand : Operand) :
    ∃ first rest, operand.lexemes = first :: rest ∧ first ≠ .symbol .openParen ∧
      first ≠ .symbol .closeParen ∧ first ≠ .keyword "SELECT" := by
  cases operand with
  | column name => exact ⟨_, _, rfl, by simp, by simp, by simp⟩
  | literal value =>
    cases value with
    | null => exact ⟨_, _, rfl, by simp, by simp, by simp⟩
    | bool value => cases value <;> exact ⟨_, _, rfl, by simp, by simp, by simp⟩
    | int value =>
      rw [Operand.lexemes, Scalar.lexemes]
      split <;> exact ⟨_, _, rfl, by simp, by simp, by simp⟩
    | float value =>
      cases value with
      | finite negative units h => cases negative <;> exact ⟨_, _, rfl, by simp, by simp, by simp⟩
      | _ => exact ⟨_, _, rfl, by simp, by simp, by simp⟩
    | text value => exact ⟨_, _, rfl, by simp, by simp, by simp⟩

/-- One test on operands: no connective and no group. -/
def Condition.IsTest : Condition → Prop
  | .and _ _ => False
  | .or _ _ => False
  | .group _ => False
  | _ => True

namespace Parser

variable {α β : Type} {answer : β} {lexemes : List Lexeme} {follow : List Lexeme → Prop}

theorem inItems_parses (items : List Operand) :
    Parses inItems (.symbol .openParen :: (separated Operand.lexemes items ++ [.symbol .closeParen])) items
      follow := by
  have hclose : Parses (expectSymbol .closeParen "')' to close IN list" >>= fun _ => pure items)
      [.symbol .closeParen] items follow :=
    parses_expectSymbol _ _ parses_pure
  refine parses_expectSymbol _ _ ?_
  cases items with
  | nil =>
    refine parses_current_cons fun token htoken => ?_
    rw [if_neg (by simp [htoken])]
    refine parses_current_cons fun token htoken => ?_
    rw [if_pos htoken]
    exact hclose
  | cons item items =>
    have hitems : Parses (commaSeparated operand) (separated Operand.lexemes (item :: items)) (item :: items)
        fun more => firstOf more = .symbol .closeParen :=
      commaSeparated_parses (fun _ => nofun) (fun more hmore => by simp [NoCall, hmore])
        fun other _ => operand_parses other
    obtain ⟨first, rest, hfirst, -, hclosed, hselect⟩ := item.exists_first
    obtain ⟨more, hlexemes⟩ : ∃ more, separated Operand.lexemes (item :: items) ++ [.symbol .closeParen] =
        first :: more := ⟨_, by rw [separated, hfirst, List.cons_append, List.cons_append]⟩
    rw [hlexemes]
    refine parses_current_cons fun token htoken => ?_
    rw [if_neg (htoken ▸ hselect)]
    refine parses_current_cons fun token htoken => ?_
    rw [if_neg (htoken ▸ hclosed), ← hlexemes]
    exact hitems.bind hclose fun _ _ => rfl

theorem comparisonOf?_symbol (comparison : Comparison) :
    comparisonOf? comparison.symbol = some comparison := by
  cases comparison <;> rfl

/-- The first operand of a test, in front of a word or a sign. -/
theorem parses_left (left : Operand) {lexeme : Lexeme} {next : Operand → Parser β}
    (hlexeme : lexeme ≠ .symbol .openParen) (h : Parses (next left) (lexeme :: lexemes) answer follow) :
    Parses (operand >>= next) (left.lexemes ++ lexeme :: lexemes) answer follow :=
  (operand_parses left).bind h fun _ _ => hlexeme

/-- The first operand of a test, and NOT if it is negated, in front of the word that the test is named for. -/
theorem parses_negatable (left : Operand) (negated : Bool) {word : String} {next : Operand → Bool → Parser β}
    {other : Operand → Parser β} (hword : word ≠ "IS" ∧ word ≠ "NOT")
    (h : Parses (next left negated) (.keyword word :: lexemes) answer follow) :
    Parses (operand >>= fun left => acceptKeyword "IS" >>= fun test =>
        if test then other left else acceptKeyword "NOT" >>= next left)
      (left.lexemes ++ (wordIf "NOT" negated ++ .keyword word :: lexemes)) answer follow := by
  have hnext := parses_wordIf negated (fun _ _ => by simpa [firstOf] using hword.2) h
  cases negated with
  | true => exact parses_left left nofun (parses_declined (fun _ _ => by simp [firstOf]) hnext)
  | false =>
    exact parses_left left nofun (parses_declined (fun _ _ => by simpa [firstOf] using hword.1) hnext)

theorem comparison_parses {condition : Condition} (h : condition.IsTest) :
    Parses comparison condition.lexemes condition NoCall := by
  cases condition with
  | compare left comparison right =>
    refine parses_left left (by cases comparison <;> simp [Comparison.symbol]) ?_
    refine parses_declined (fun _ _ => by simp [firstOf]) ?_
    refine parses_declined (fun _ _ => by simp [firstOf]) ?_
    refine parses_declined (fun _ _ => by simp [firstOf]) ?_
    refine parses_declined (fun _ _ => by simp [firstOf]) ?_
    refine parses_declined (fun _ _ => by simp [firstOf]) ?_
    refine parses_current_cons fun token htoken => ?_
    rw [htoken]
    simp only [comparisonOf?_symbol]
    exact parses_advance nofun ((operand_parses right).make _)
  | like left pattern negated =>
    rw [Condition.lexemes, List.append_assoc]
    refine parses_negatable left negated (by simp) (parses_accepted (by simp) nofun ?_)
    refine parses_current_cons fun token htoken => ?_
    rw [htoken]
    exact parses_advance nofun parses_pure
  | inList left items negated =>
    simp only [Condition.lexemes, List.append_assoc, List.cons_append]
    refine parses_negatable left negated (by simp) ?_
    refine parses_declined (fun _ _ => by simp [firstOf]) ?_
    exact parses_accepted (by simp) nofun ((inItems_parses items).make _)
  | between left low high negated =>
    simp only [Condition.lexemes, List.append_assoc, List.cons_append]
    refine parses_negatable left negated (by simp) ?_
    refine parses_declined (fun _ _ => by simp [firstOf]) ?_
    refine parses_declined (fun _ _ => by simp [firstOf]) ?_
    refine parses_accepted (by simp) nofun (parses_left low nofun ?_)
    exact parses_accepted (by simp) nofun ((operand_parses high).make _)
  | isNull left negated =>
    simp only [Condition.lexemes, List.append_assoc, List.cons_append]
    refine parses_left left nofun (parses_accepted (by simp) nofun ?_)
    refine parses_wordIf negated (fun _ _ => by simp [firstOf]) ?_
    exact parses_accepted (by simp) nofun parses_pure
  | _ => cases h

end Parser

end SnapshotSql
