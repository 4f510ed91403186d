import SnapshotSql.Proofs.LongestLexemes
import SnapshotSql.Proofs.ReadLexemes

/-! # Arithmetic in assignments

Between the two operands of an assignment stands a sign. The signs `+`, `-`, `*` and `/` stand for what they look
like: integers are combined exactly, a float on one side makes floats of both, and of what is no number only the
sum is a text. The sign of `t.*` is taken as well, and it divides. With anything else behind its first operand, a
comparison or a name or a number, the assignment is rejected and the UPDATE with it.
-/
namespace SnapshotSql

def arithmeticSigns : List Symbol :=
  [.plus, .minus, .star, .slash]

def assignmentEnds : List Lexeme :=
  [.symbol .comma, .symbol .semicolon, .keyword "WHERE", .endOfInput]

namespace Symbol

/-- The operation of a sign on integers, if its result is one. -/
def onInts? : Symbol → Option (Int → Int → Int)
  | .plus => some (· + ·)
  | .minus => some (· - ·)
  | .star => some (· * ·)
  | _ => none

def onFloats? : Symbol → Option (Binary64 → Binary64 → Binary64)
  | .plus => some .add
  | .minus => some .sub
  | .star => some .mul
  | .slash => some .div
  | _ => none

/-- What the operation of a sign makes of two values. -/
inductive Applies : Symbol → Scalar → Scalar → Scalar → Prop
  | ints {symbol : Symbol} {left right : Scalar} {operation : Int → Int → Int} {a b : Int}
      (hsymbol : symbol.onInts? = some operation) (ha : left.toNumber = .int a) (hb : right.toNumber = .int b) :
      Applies symbol left right (.int (operation a b))
  | floats {symbol : Symbol} {left right : Scalar} {operation : Binary64 → Binary64 → Binary64}
      (hsymbol : symbol.onFloats? = some operation)
      (hfloat : symbol.onInts? = none ∨ ¬ ∃ a b, left.toNumber = .int a ∧ right.toNumber = .int b)
      (hleft : left.toNumber.isNan = false) (hright : right.toNumber.isNan = false) :
      Applies symbol left right (.float (operation left.toNumber.toFloat right.toNumber.toFloat))
  | texts {left right : Scalar} (hnan : left.toNumber.isNan = true ∨ right.toNumber.isNan = true) :
      Applies .plus left right (.text (left.likeText ++ right.likeText))
  | undefined {symbol : Symbol} {left right : Scalar} (hsymbol : symbol ∈ [.minus, .star, .slash])
      (hnan : left.toNumber.isNan = true ∨ right.toNumber.isNan = true) : Applies symbol left right (.float .nan)

end Symbol

variable {symbol : Symbol} {operation : Arithmetic} {left right : Scalar} {a b : Number}

/-! ## What the signs stand for -/

theorem Number.toFloat_of_isNan (h : a.isNan = true) : a.toFloat = .nan := by
  cases a with
  | int value => cases h
  | float value =>
    cases value with
    | nan => rfl
    | _ => cases h

theorem Number.combine_floats {onInts : Int → Int → Int} {onFloats : Binary64 → Binary64 → Binary64}
    (h : ¬ ∃ m n, a = .int m ∧ b = .int n) : a.combine onInts onFloats b = .float (onFloats a.toFloat b.toFloat) := by
  cases a with
  | int m =>
    cases b with
    | int n => exact absurd ⟨m, n, rfl, rfl⟩ h
    | float _ => rfl
  | float _ => rfl

theorem Number.not_ints_of_isNan (h : a.isNan = true ∨ b.isNan = true) : ¬ ∃ m n, a = .int m ∧ b = .int n := by
  rintro ⟨m, n, rfl, rfl⟩
  obtain h | h := h <;> cases h

/-- The operations on floats make no number of what is none. -/
theorem Symbol.onFloats?_nan {onFloats : Binary64 → Binary64 → Binary64} (h : symbol.onFloats? = some onFloats)
    (hnan : a.isNan = true ∨ b.isNan = true) : onFloats a.toFloat b.toFloat = .nan := by
  have hadd : ∀ x : Binary64, x.add .nan = .nan := fun x => by cases x <;> rfl
  have hmul : ∀ x : Binary64, x.mul .nan = .nan := fun x => by cases x <;> rfl
  have hdiv : ∀ x : Binary64, x.div .nan = .nan := fun x => by cases x <;> rfl
  obtain hnan | hnan := hnan
  · rw [Number.toFloat_of_isNan hnan]
    cases symbol <;> cases h <;> rfl
  · rw [Number.toFloat_of_isNan hnan]
    cases symbol <;> cases h
    · exact hadd _
    · exact hadd _
    · exact hmul _
    · exact hdiv _

open SnapshotSql.Symbol (Applies)

/-- Where both sides are numbers, the operation of the sign is applied to them. -/
theorem applies_combine {onInts : Int → Int → Int} {onFloats : Binary64 → Binary64 → Binary64}
    (hints : symbol.onInts? = some onInts) (hfloats : symbol.onFloats? = some onFloats)
    (hnan : ¬(left.toNumber.isNan = true ∨ right.toNumber.isNan = true)) :
    Applies symbol left right (left.toNumber.combine onInts onFloats right.toNumber).toScalar := by
  by_cases hboth : ∃ m n, left.toNumber = .int m ∧ right.toNumber = .int n
  · obtain ⟨m, n, hm, hn⟩ := hboth
    rw [hm, hn]
    exact .ints hints hm hn
  · rw [not_or, Bool.not_eq_true, Bool.not_eq_true] at hnan
    rw [Number.combine_floats hboth]
    exact .floats hfloats (.inr hboth) hnan.1 hnan.2

/-- A sign that always converts makes no number of what is none. -/
theorem applies_converted {onInts : Int → Int → Int} {onFloats : Binary64 → Binary64 → Binary64}
    (hsymbol : symbol ∈ [.minus, .star, .slash]) (hints : symbol.onInts? = some onInts)
    (hfloats : symbol.onFloats? = some onFloats) (left right : Scalar) :
    Applies symbol left right (left.toNumber.combine onInts onFloats right.toNumber).toScalar := by
  by_cases hnan : left.toNumber.isNan = true ∨ right.toNumber.isNan = true
  · rw [Number.combine_floats (Number.not_ints_of_isNan hnan), Symbol.onFloats?_nan hfloats hnan]
    exact .undefined hsymbol hnan
  · exact applies_combine hints hfloats hnan

theorem applies_quotient (left right : Scalar) :
    Applies .slash left right (.float (left.toNumber.toFloat.div right.toNumber.toFloat)) := by
  have hdivision : Symbol.slash.onFloats? = some .div := rfl
  by_cases hnan : left.toNumber.isNan = true ∨ right.toNumber.isNan = true
  · rw [Symbol.onFloats?_nan hdivision hnan]
    exact .undefined (by decide) hnan
  · rw [not_or, Bool.not_eq_true, Bool.not_eq_true] at hnan
    exact .floats hdivision (.inl rfl) hnan.1 hnan.2

theorem arithmeticOf?_ne_none_iff : Parser.arithmeticOf? symbol ≠ none ↔ symbol ∈ .pointStar :: arithmeticSigns := by
  cases symbol <;> decide

/-- The operation that is read from a sign is the one that the sign stands for. -/
theorem applies_of_arithmeticOf? (h : Parser.arithmeticOf? symbol = some operation) (hsymbol : symbol ≠ .pointStar)
    (left right : Scalar) : Applies symbol left right (operation.apply left right) := by
  cases symbol with
  | plus =>
    cases h
    by_cases hnan : left.toNumber.isNan = true ∨ right.toNumber.isNan = true
    · have htexts : Arithmetic.add.apply left right = .text (left.likeText ++ right.likeText) := by
        simp [Arithmetic.apply, hnan]
      rw [htexts]
      exact .texts hnan
    · have hsum : Arithmetic.add.apply left right = (left.toNumber.combine (· + ·) .add right.toNumber).toScalar := by
        simp [Arithmetic.apply, hnan]
      rw [hsum]
      exact applies_combine rfl rfl hnan
  | minus =>
    cases h
    exact applies_converted (by decide) rfl rfl left right
  | star =>
    cases h
    exact applies_converted (by decide) rfl rfl left right
  | slash =>
    cases h
    exact applies_quotient left right
  | pointStar => exact absurd rfl hsymbol
  | _ => cases h

/-- A sign makes one value of two. -/
theorem Symbol.Applies.unique {value value' : Scalar} (h : Applies symbol left right value)
    (h' : Applies symbol left right value') : value = value' := by
  cases h with
  | ints hsymbol ha hb =>
    cases h' with
    | ints hsymbol' ha' hb' =>
      cases hsymbol.symm.trans hsymbol'
      cases ha.symm.trans ha'
      cases hb.symm.trans hb'
      rfl
    | floats _ hfloat _ _ =>
      obtain hnone | hints := hfloat
      · cases hsymbol.symm.trans hnone
      · exact absurd ⟨_, _, ha, hb⟩ hints
    | texts hnan => exact absurd ⟨_, _, ha, hb⟩ (Number.not_ints_of_isNan hnan)
    | undefined _ hnan => exact absurd ⟨_, _, ha, hb⟩ (Number.not_ints_of_isNan hnan)
  | floats hsymbol hfloat hleft hright =>
    have hnumbers : ¬(left.toNumber.isNan = true ∨ right.toNumber.isNan = true) := by simp [hleft, hright]
    cases h' with
    | ints hsymbol' ha hb =>
      obtain hnone | hints := hfloat
      · cases hsymbol'.symm.trans hnone
      · exact absurd ⟨_, _, ha, hb⟩ hints
    | floats hsymbol' _ _ _ =>
      cases hsymbol.symm.trans hsymbol'
      rfl
    | texts hnan => exact absurd hnan hnumbers
    | undefined _ hnan => exact absurd hnan hnumbers
  | texts hnan =>
    cases h' with
    | ints _ ha hb => exact absurd ⟨_, _, ha, hb⟩ (Number.not_ints_of_isNan hnan)
    | floats _ _ hleft hright => simp [hleft, hright] at hnan
    | texts _ => rfl
    | undefined hsymbol _ => exact absurd hsymbol (by decide)
  | undefined hsymbol hnan =>
    cases h' with
    | ints _ ha hb => exact absurd ⟨_, _, ha, hb⟩ (Number.not_ints_of_isNan hnan)
    | floats _ _ hleft hright => simp [hleft, hright] at hnan
    | texts _ => exact absurd hsymbol (by decide)
    | undefined _ _ => rfl

/-! ## What is read -/

namespace Parser

variable {tokens middle rest : List Token} {leftOperand rightOperand : Operand} {sign start equal : Token}

/-- The second operand is read behind a sign that is taken for an operation. -/
theorem setExpression_of_sign (hleft : operand tokens = .ok (leftOperand, sign :: middle))
    (hsign : sign.lexeme = .symbol symbol) (h : arithmeticOf? symbol = some operation) :
    setExpression tokens =
      (operand middle).map fun (right, rest) => (.arithmetic leftOperand operation right, rest) := by
  rw [setExpression, run_bind hleft, run_current, List.headD_cons, hsign]
  dsimp only
  rw [h]
  dsimp only
  rw [run_bind (run_advance (by simp [hsign]))]
  cases hright : operand middle with
  | error error => exact run_bind_error hright
  | ok step => exact run_bind hright

/-- Anything else is left to what comes next. -/
theorem setExpression_of_other (hleft : operand tokens = .ok (leftOperand, rest))
    (hother : ∀ symbol, (rest.headD lastToken).lexeme = .symbol symbol → arithmeticOf? symbol = none) :
    setExpression tokens = .ok (.operand leftOperand, rest) := by
  rw [setExpression, run_bind hleft, run_current]
  generalize (rest.headD lastToken).lexeme = lexeme at hother
  cases lexeme with
  | symbol symbol =>
    dsimp only
    rw [hother symbol rfl]
    rfl
  | _ => rfl

def SignBetween (tokens : List Token) (leftOperand : Operand) (sign : Token) (symbol : Symbol)
    (rightOperand : Operand) (rest : List Token) : Prop :=
  ∃ middle, operand tokens = .ok (leftOperand, sign :: middle) ∧ sign.lexeme = .symbol symbol ∧
    operand middle = .ok (rightOperand, rest)

/-- An operation is read from two operands and a sign between them that is taken for one. -/
theorem setExpression_eq_arithmetic_iff :
    setExpression tokens = .ok (.arithmetic leftOperand operation rightOperand, rest) ↔
      ∃ sign symbol, SignBetween tokens leftOperand sign symbol rightOperand rest ∧
        arithmeticOf? symbol = some operation := by
  constructor
  · intro h
    obtain ⟨first, behind, hleft, -⟩ := bind_eq_ok.mp h
    by_cases hother : ∀ symbol, (behind.headD lastToken).lexeme = .symbol symbol → arithmeticOf? symbol = none
    · rw [setExpression_of_other hleft hother] at h
      cases h
    · push Not at hother
      obtain ⟨symbol, hsign, hsome⟩ := hother
      obtain ⟨found, hfound⟩ := Option.ne_none_iff_exists'.mp hsome
      cases behind with
      | nil => cases hsign
      | cons sign middle =>
        rw [setExpression_of_sign hleft hsign hfound] at h
        obtain ⟨⟨second, last⟩, hright, heq⟩ := Check.map_eq_ok.mp h
        cases heq
        exact ⟨sign, symbol, ⟨middle, hleft, hsign, hright⟩, hfound⟩
  · rintro ⟨sign, symbol, ⟨middle, hleft, hsign, hright⟩, hsome⟩
    rw [setExpression_of_sign hleft hsign hsome, hright]
    rfl

/-- Reading an operand leaves no tokens but those that were there. -/
theorem consumes_operand : Consumes operand := by
  have htaken {operand : Operand} : Consumes (advance >>= fun _ => pure operand) :=
    consumes_advance.bind fun _ => consumes_pure operand
  have hsigned {operand : Operand} : Consumes (advance >>= fun _ => advance >>= fun _ => pure operand) :=
    consumes_advance.bind fun _ => htaken
  refine consumes_current.bind fun token => ?_
  split
  · refine consumes_advance.bind fun _ => consumes_current.bind fun _ => Consumes.ite ?_ (consumes_pure _)
    exact consumes_reject _
  · exact htaken
  · exact htaken
  · exact htaken
  · exact htaken
  · exact htaken
  · refine consumes_following.bind fun token => ?_
    split
    · exact hsigned
    · exact consumes_complain _
  · refine consumes_following.bind fun token => ?_
    split
    · exact hsigned
    · exact consumes_complain _
  · refine (consumes_current.bind fun _ => consumes_following.bind fun _ => consumes_pure _).bind fun _ => ?_
    exact Consumes.ite (consumes_reject _) (consumes_complain _)

/-! ## What is rejected -/

/-- A parser that reads one lexeme whatever follows. -/
theorem Parses.run {α : Type} {parser : Parser α} {lexeme : Lexeme} {value : α}
    (h : Parses parser [lexeme] value fun _ => True) (hlexeme : sign.lexeme = lexeme) :
    parser (sign :: rest) = .ok (value, rest) :=
  h [sign] rest (congrArg ([·]) hlexeme) trivial

theorem run_acceptSymbol (h : sign.lexeme = .symbol symbol) : acceptSymbol symbol (sign :: rest) = .ok (true, rest) :=
  (acceptIf_parses (by simp) (by simp)).run h

theorem run_acceptKeyword {word : String} (h : sign.lexeme = .keyword word) :
    acceptKeyword word (sign :: rest) = .ok (true, rest) :=
  (acceptIf_parses (by simp) (by simp)).run h

theorem run_expectSymbol (h : sign.lexeme = .symbol symbol) (what : Text) :
    expectSymbol symbol what (sign :: rest) = .ok ((), rest) :=
  run_bind (run_acceptSymbol h)

theorem run_expectKeyword {word : String} (h : sign.lexeme = .keyword word) :
    expectKeyword word (sign :: rest) = .ok ((), rest) :=
  run_bind (run_acceptKeyword h)

theorem run_expectName {name : Text} (h : sign.lexeme = .name name) (what : Text) :
    expectName what (sign :: rest) = .ok (name, rest) :=
  (expectName_parses name what).run h

/-- Where neither an operation nor the end of the assignment stands behind the first operand, the assignment is
rejected. -/
theorem assignment_error {column : Text} (hstart : start.lexeme = .name column)
    (hequal : equal.lexeme = .symbol .equal) (hleft : operand tokens = .ok (leftOperand, sign :: middle))
    (hsign : ∀ symbol ∈ .pointStar :: arithmeticSigns, sign.lexeme ≠ .symbol symbol)
    (hends : sign.lexeme ∉ assignmentEnds) :
    assignment (start :: equal :: tokens) = .error (.malformed (.assignment start.fragment none)) := by
  have hexpression : setExpression tokens = .ok (.operand leftOperand, sign :: middle) := by
    apply setExpression_of_other hleft
    intro symbol hlexeme
    by_contra hsome
    exact hsign symbol (arithmeticOf?_ne_none_iff.mp hsome) hlexeme
  have hsides : assignmentSides (start :: equal :: tokens) =
      .ok ((column, .operand leftOperand), sign :: middle) := by
    rw [assignmentSides, run_bind (run_expectName hstart _), run_bind (run_expectSymbol hequal _),
      run_bind hexpression]
    rfl
  have hinside : inAssignment start assignmentSides (start :: equal :: tokens) =
      .ok ((column, .operand leftOperand), sign :: middle) := by
    simp [inAssignment, StateT.run, hsides]
  rw [assignment, run_current, List.headD_cons, run_bind hinside]
  dsimp only
  rw [run_current, List.headD_cons]
  rw [if_neg]
  · rfl
  · split
    · next hlexeme => exact absurd (hlexeme ▸ by decide) hends
    · next hlexeme => exact absurd (hlexeme ▸ by decide) hends
    · next hlexeme => exact absurd (hlexeme ▸ by decide) hends
    · next hlexeme => exact absurd (hlexeme ▸ by decide) hends
    · exact Bool.false_ne_true

/-- Items with commas behind them stand in front of the last tokens. -/
inductive Follows {α : Type} (item : Parser α) : List Token → List Token → Prop
  | here {tokens : List Token} : Follows item tokens tokens
  | item {front tokens rest : List Token} {comma : Token} {value : α}
      (hitem : item (front ++ comma :: tokens) = .ok (value, comma :: tokens))
      (hcomma : comma.lexeme = .symbol .comma) (h : Follows item tokens rest) :
      Follows item (front ++ comma :: tokens) rest

section
variable {α : Type} {item : Parser α} {error : SqlError}

theorem moreItems_error (h : Follows item tokens rest) (herror : item rest = .error error) {fuel : Nat}
    (hfuel : tokens.length ≤ fuel) {comma : Token} (hcomma : comma.lexeme = .symbol .comma) :
    moreItems item (fuel + 1) (comma :: tokens) = .error error := by
  induction h generalizing fuel comma with
  | here =>
    rw [moreItems, run_bind (run_acceptSymbol hcomma), if_pos rfl]
    exact run_bind_error herror
  | @item front tokens rest other value hitem hother _ ih =>
    rw [List.length_append, List.length_cons] at hfuel
    obtain ⟨less, rfl⟩ : ∃ less, fuel = less + 1 := ⟨fuel - 1, by omega⟩
    rw [moreItems, run_bind (run_acceptSymbol hcomma), if_pos rfl, run_bind hitem]
    exact run_bind_error (ih herror (by omega) hother)

/-- A list of items is rejected for the first one that is. -/
theorem commaSeparated_error (h : Follows item tokens rest) (herror : item rest = .error error) :
    commaSeparated item tokens = .error error := by
  cases h with
  | here => exact run_bind_error herror
  | @item front tokens rest comma value hitem hcomma h =>
    have hget : (get : Parser (List Token)) (comma :: tokens) = .ok (comma :: tokens, comma :: tokens) := rfl
    rw [commaSeparated, run_bind hitem, run_bind hget]
    exact run_bind_error (moreItems_error h herror (Nat.le_refl _) hcomma)

end

end Parser

/-- The text updates a table, and one of its assignments, with none in front of it that is rejected, begins at the
token `start` and has the token `sign` behind its first operand. -/
inductive ReachesSign (text : Text) (start sign : Token) : Prop
  | intro {update table set equal : Token} {body tokens middle : List Token} {name column : Text}
      {leftOperand : Operand} (htokens : tokenize (Text.trim text) = .ok (update :: table :: set :: body))
      (hupdate : update.lexeme = .keyword "UPDATE") (htable : table.lexeme = .name name)
      (hset : set.lexeme = .keyword "SET") (hbody : Parser.Follows Parser.assignment body (start :: equal :: tokens))
      (hstart : start.lexeme = .name column) (hequal : equal.lexeme = .symbol .equal)
      (hleft : Parser.operand tokens = .ok (leftOperand, sign :: middle)) : ReachesSign text start sign

theorem parse_of_reachesSign {text : Text} {start sign : Token} (h : ReachesSign text start sign)
    (hsign : ∀ symbol ∈ .pointStar :: arithmeticSigns, sign.lexeme ≠ .symbol symbol)
    (hends : sign.lexeme ∉ assignmentEnds) :
    parse text = .error (.rejected (.malformed (.assignment start.fragment none))) := by
  obtain @⟨update, table, set, equal, body, tokens, middle, name, column, left, htokens, hupdate, htable, hset, hbody,
    hstart, hequal, hleft⟩ := h
  have herror := Parser.assignment_error hstart hequal hleft hsign hends
  have hupdates : Parser.update (update :: table :: set :: body) =
      .error (.malformed (.assignment start.fragment none)) := by
    rw [Parser.update, Parser.run_bind (Parser.run_expectKeyword hupdate),
      Parser.run_bind (Parser.run_expectName htable _), Parser.run_bind (Parser.run_acceptKeyword hset), if_pos rfl]
    exact Parser.run_bind_error (Parser.commaSeparated_error hbody herror)
  have hstatement : Parser.statement (update :: table :: set :: body) =
      .error (.malformed (.assignment start.fragment none)) := by
    apply Parser.run_bind_error
    rw [Parser.bareStatement, Parser.run_current, List.headD_cons, hupdate]
    exact Parser.run_bind_error hupdates
  rw [parse, htokens]
  change orFail (Prod.fst <$> Parser.statement (update :: table :: set :: body)) = _
  rw [hstatement]
  rfl

/-- What an operation makes of the operands in a row is what its sign stands for. -/
theorem value_eq_iff (h : Parser.arithmeticOf? symbol = some operation) (hsymbol : symbol ≠ .pointStar)
    (leftOperand rightOperand : Operand) (row : Row) (value : Scalar) :
    (SetExpression.arithmetic leftOperand operation rightOperand).value row = value ↔
      Applies symbol (leftOperand.value row) (rightOperand.value row) value := by
  have happlies := applies_of_arithmeticOf? h hsymbol (leftOperand.value row) (rightOperand.value row)
  constructor
  · rintro rfl
    exact happlies
  · exact happlies.unique

theorem value_eq_iff_quotient (leftOperand rightOperand : Operand) (row : Row) (value : Scalar) :
    (SetExpression.arithmetic leftOperand .pointStar rightOperand).value row = value ↔
      Applies .slash (leftOperand.value row) (rightOperand.value row) value :=
  have hdivision : Parser.arithmeticOf? .slash = some .divide := rfl
  value_eq_iff hdivision (by decide) leftOperand rightOperand row value

/-- An operation is written with one of the signs `+`, `-`, `*` and `/`, and is the one that this sign stands for in
every row, or it is written `.*` and divides. Where any other token stands between two operands, the UPDATE is
rejected. -/
theorem arithmetic_signs (text : Text) (tokens rest : List Token) (leftOperand rightOperand : Operand) :
    (∀ operation, Parser.setExpression tokens = .ok (.arithmetic leftOperand operation rightOperand, rest) →
      ∃ sign symbol, Parser.SignBetween tokens leftOperand sign symbol rightOperand rest ∧
        (∀ all, tokenize text = .ok all → tokens ⊆ all → symbol.text <+: text.drop sign.position) ∧
        (symbol ∈ arithmeticSigns ∧ (∀ row value,
            (SetExpression.arithmetic leftOperand operation rightOperand).value row = value ↔
              Applies symbol (leftOperand.value row) (rightOperand.value row) value) ∨
          symbol = .pointStar ∧ ∀ row value,
            (SetExpression.arithmetic leftOperand operation rightOperand).value row = value ↔
              Applies .slash (leftOperand.value row) (rightOperand.value row) value)) ∧
    (∀ sign symbol, symbol ∈ .pointStar :: arithmeticSigns →
      Parser.SignBetween tokens leftOperand sign symbol rightOperand rest →
      ∃ operation, Parser.setExpression tokens = .ok (.arithmetic leftOperand operation rightOperand, rest)) ∧
    ∀ start sign, ReachesSign text start sign →
      (∀ symbol ∈ .pointStar :: arithmeticSigns, sign.lexeme ≠ .symbol symbol) → sign.lexeme ∉ assignmentEnds →
      parse text = .error (.rejected (.malformed (.assignment start.fragment none))) := by
  refine ⟨?_, ?_, fun start sign => parse_of_reachesSign⟩
  · intro operation h
    obtain ⟨sign, symbol, hbetween, hoperation⟩ := Parser.setExpression_eq_arithmetic_iff.mp h
    refine ⟨sign, symbol, hbetween, ?_, ?_⟩
    · intro all htokens hsubset
      obtain ⟨middle, hleft, hsign, -⟩ := hbetween
      have hmem := Parser.consumes_operand _ _ _ hleft List.mem_cons_self
      exact Lexer.symbol_prefix_drop htokens (hsubset hmem) hsign
    · have hmem := arithmeticOf?_ne_none_iff.mp (hoperation ▸ Option.some_ne_none operation)
      by_cases hpoint : symbol = .pointStar
      · subst hpoint
        cases hoperation
        exact .inr ⟨rfl, value_eq_iff_quotient leftOperand rightOperand⟩
      · exact .inl ⟨(List.mem_cons.mp hmem).resolve_left hpoint,
          value_eq_iff hoperation hpoint leftOperand rightOperand⟩
  · intro sign symbol hsymbol hbetween
    obtain ⟨operation, hoperation⟩ := Option.ne_none_iff_exists'.mp (arithmeticOf?_ne_none_iff.mpr hsymbol)
    exact ⟨operation, Parser.setExpression_eq_arithmetic_iff.mpr ⟨sign, symbol, hbetween, hoperation⟩⟩

def unspaced (symbol : Symbol) : List Token :=
  [⟨.name "x", 0, "x" ++ symbol.text ++ "2"⟩, ⟨.symbol symbol, 1, symbol.text ++ "2"⟩,
    ⟨.number (.int 2), 1 + symbol.text.length, "2"⟩, ⟨.endOfInput, 2 + symbol.text.length, []⟩]

theorem setExpression_unspaced_star : Parser.setExpression (unspaced .star) =
    .ok (.arithmetic (.column "x") .multiply (.literal (.int 2)), (unspaced .star).drop 3) := by
  rfl

theorem reachesSign_less : ReachesSign "UPDATE t SET x = 1, y = y < 2"
    ⟨.name "y", 20, "y = y < 2"⟩ ⟨.symbol .less, 26, "< 2"⟩ := by
  let first : List Token := [⟨.name "x", 13, "x = 1, y = y < 2"⟩, ⟨.symbol .equal, 15, "= 1, y = y < 2"⟩,
    ⟨.number (.int 1), 17, "1, y = y < 2"⟩]
  let second : List Token := [⟨.name "y", 20, "y = y < 2"⟩, ⟨.symbol .equal, 22, "= y < 2"⟩, ⟨.name "y", 24, "y < 2"⟩,
    ⟨.symbol .less, 26, "< 2"⟩, ⟨.number (.int 2), 28, "2"⟩, ⟨.endOfInput, 29, []⟩]
  let comma : Token := ⟨.symbol .comma, 18, ", y = y < 2"⟩
  have htokens : tokenize (Text.trim "UPDATE t SET x = 1, y = y < 2") =
      .ok (⟨.keyword "UPDATE", 0, "UPDATE t SET x = 1, y = y < 2"⟩ :: ⟨.name "t", 7, "t SET x = 1, y = y < 2"⟩ ::
        ⟨.keyword "SET", 9, "SET x = 1, y = y < 2"⟩ :: (first ++ comma :: second)) := by
    rfl
  exact .intro htokens rfl rfl rfl (.item rfl rfl .here) rfl rfl rfl

theorem arithmetic_signs_product :
    Symbol.star.text <+: List.drop 1 (Text.ofString "x*2") ∧
    (∀ row value, (SetExpression.arithmetic (.column "x") .multiply (.literal (.int 2))).value row = value ↔
      Applies .star (Operand.value row (.column "x")) (.int 2) value) ∧
    (∃ operation, Parser.setExpression (unspaced .star) =
      .ok (.arithmetic (.column "x") operation (.literal (.int 2)), (unspaced .star).drop 3)) ∧
    parse "UPDATE t SET x = 1, y = y < 2" = .error (.rejected (.malformed (.assignment "y = y < 2" none))) := by
  have htokens : tokenize "x*2" = .ok (unspaced .star) := by rfl
  have hleft : Parser.operand (unspaced .star) = .ok (.column "x", (unspaced .star).tail) := by rfl
  have hright : Parser.operand ((unspaced .star).drop 2) = .ok (.literal (.int 2), (unspaced .star).drop 3) := by rfl
  obtain ⟨haccepted, hread, -⟩ :=
    arithmetic_signs "x*2" (unspaced .star) ((unspaced .star).drop 3) (.column "x") (.literal (.int 2))
  obtain ⟨-, -, hrejected⟩ := arithmetic_signs "UPDATE t SET x = 1, y = y < 2" [] [] (.column "x") (.column "x")
  obtain ⟨sign, symbol, ⟨middle, hfirst, hsign, -⟩, htext, hsymbol⟩ := haccepted _ setExpression_unspaced_star
  cases hleft.symm.trans hfirst
  cases hsign
  refine ⟨htext _ htokens (List.Subset.refl _), ?_, ?_, ?_⟩
  · obtain ⟨-, hvalue⟩ | ⟨hpoint, -⟩ := hsymbol
    · exact hvalue
    · cases hpoint
  · exact hread _ .star (by decide) ⟨_, hleft, rfl, hright⟩
  · exact hrejected _ _ reachesSign_less (by decide) (by decide)

/-- Not every sign that is taken for an operation is one of the four: `x.*2` is read, and is a quotient. -/
theorem not_every_sign_arithmetic : ¬ ∀ text tokens, tokenize text = .ok tokens →
    ∀ leftOperand operation rightOperand rest,
      Parser.setExpression tokens = .ok (.arithmetic leftOperand operation rightOperand, rest) →
      ∃ sign symbol, Parser.SignBetween tokens leftOperand sign symbol rightOperand rest ∧ symbol ∈ arithmeticSigns ∧
        ∀ row, Applies symbol (leftOperand.value row) (rightOperand.value row)
          ((SetExpression.arithmetic leftOperand operation rightOperand).value row) := by
  intro hevery
  have htokens : tokenize "x.*2" = .ok (unspaced .pointStar) := by rfl
  have hread : Parser.setExpression (unspaced .pointStar) =
      .ok (.arithmetic (.column "x") .pointStar (.literal (.int 2)), (unspaced .pointStar).drop 3) := by
    rfl
  have hleft : Parser.operand (unspaced .pointStar) = .ok (.column "x", (unspaced .pointStar).tail) := by rfl
  obtain ⟨sign, symbol, ⟨middle, hfirst, hsign, -⟩, hmem, -⟩ := hevery _ _ htokens _ _ _ _ hread
  cases hleft.symm.trans hfirst
  cases hsign
  exact absurd hmem (by decide)

end SnapshotSql
