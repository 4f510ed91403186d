import SnapshotSql.Proofs.ReadLexemes

/-! # Reading printed conditions

The shape of a condition follows the recursion of the grammar: chains with OR of chains with AND of tests
and groups, and inside a group the same one level down. Chains are joined from the left. A condition of this
shape is read from its lexemes, and the bound on nesting does not matter where there are as many levels as
lexemes, because every level takes two of them.
-/
namespace SnapshotSql.Condition

variable {join : Condition → Condition → Condition} {item item' inner : Condition → Prop}
  {condition : Condition}

def Chained (join : Condition → Condition → Condition) (item : Condition → Prop)
    (condition : Condition) : Prop :=
  ∃ first rest, (∀ part ∈ first :: rest, item part) ∧ condition = rest.foldl join first

def Primary (inner : Condition → Prop) (condition : Condition) : Prop :=
  condition.IsTest ∨ ∃ part, inner part ∧ condition = .group part

/-- The shape of conditions with at most `depth` levels of parentheses. -/
def Within : Nat → Condition → Prop
  | 0 => IsTest
  | depth + 1 => Chained .or (Chained .and (Primary (Within depth)))

theorem chained_single (h : item condition) : Chained join item condition :=
  ⟨condition, [], List.forall_mem_singleton.mpr h, rfl⟩

theorem within_of_isTest (h : condition.IsTest) (depth : Nat) : Within depth condition := by
  cases depth with
  | zero => exact h
  | succ depth => exact chained_single (chained_single (.inl h))

/-- A test begins with its first operand. -/
theorem IsTest.exists_first (h : condition.IsTest) :
    ∃ first rest, condition.lexemes = first :: rest ∧ first ≠ .symbol .openParen ∧
      first ≠ .keyword "SELECT" := by
  have hleft : ∃ (left : Operand) (more : List Lexeme), condition.lexemes = left.lexemes ++ more := by
    cases condition with
    | compare left => exact ⟨left, _, rfl⟩
    | like left => exact ⟨left, _, by rw [lexemes, List.append_assoc]⟩
    | inList left => exact ⟨left, _, by rw [lexemes, List.append_assoc, List.append_assoc]⟩
    | between left => exact ⟨left, _, by rw [lexemes, List.append_assoc, List.append_assoc]⟩
    | isNull left => exact ⟨left, _, by rw [lexemes, List.append_assoc]⟩
    | _ => cases h
  obtain ⟨left, more, heq⟩ := hleft
  obtain ⟨first, rest, hfirst, hopen, -, hselect⟩ := left.exists_first
  exact ⟨first, rest ++ more, by rw [heq, hfirst, List.cons_append], hopen, hselect⟩

/-- A condition does not begin with SELECT. -/
theorem exists_first (condition : Condition) :
    ∃ first rest, condition.lexemes = first :: rest ∧ first ≠ .keyword "SELECT" := by
  have htest : ∀ {test : Condition}, test.IsTest →
      ∃ first rest, test.lexemes = first :: rest ∧ first ≠ .keyword "SELECT" := fun h =>
    have ⟨first, rest, hfirst, _, hselect⟩ := h.exists_first
    ⟨first, rest, hfirst, hselect⟩
  induction condition with
  | and left right ih _ =>
    obtain ⟨first, rest, hfirst, hselect⟩ := ih
    exact ⟨first, _, by rw [lexemes, hfirst, List.cons_append], hselect⟩
  | or left right ih _ =>
    obtain ⟨first, rest, hfirst, hselect⟩ := ih
    exact ⟨first, _, by rw [lexemes, hfirst, List.cons_append], hselect⟩
  | group inner => exact ⟨_, _, rfl, by simp⟩
  | _ => exact htest trivial

/-- Two conditions are joined by writing the word between them. -/
def JoinedBy (word : String) (join : Condition → Condition → Condition) : Prop :=
  ∀ left right, (join left right).lexemes = left.lexemes ++ .keyword word :: right.lexemes

theorem joinedBy_and : JoinedBy "AND" .and :=
  fun _ _ => rfl

theorem joinedBy_or : JoinedBy "OR" .or :=
  fun _ _ => rfl

section
variable {word : String} (hjoin : JoinedBy word join)
include hjoin

/-- In a chain the word stands before every item but the first. -/
theorem lexemes_foldl (first : Condition) (rest : List Condition) :
    (rest.foldl join first).lexemes =
      first.lexemes ++ rest.flatMap fun part => .keyword word :: part.lexemes := by
  induction rest generalizing first with
  | nil => rw [List.foldl_nil, List.flatMap_nil, List.append_nil]
  | cons part rest ih =>
    rw [List.foldl_cons, ih, hjoin, List.flatMap_cons, List.append_assoc, List.cons_append]

/-- The parts of a chain are no longer than the chain. -/
theorem Chained.imp (h : Chained join item condition)
    (himp : ∀ part, part.lexemes.length ≤ condition.lexemes.length → item part → item' part) :
    Chained join item' condition := by
  obtain ⟨first, rest, hparts, rfl⟩ := h
  refine ⟨first, rest, fun part hpart => himp part ?_ (hparts part hpart), rfl⟩
  rw [lexemes_foldl hjoin, List.length_append]
  rcases List.mem_cons.mp hpart with rfl | hpart
  · exact Nat.le_add_right _ _
  · obtain ⟨before, after, rfl⟩ := List.append_of_mem hpart
    simp only [List.flatMap_append, List.flatMap_cons, List.length_append, List.length_cons]
    omega

end

/-- As many levels as there are lexemes are enough. -/
theorem Within.deepen {depth depth' : Nat} (h : Within depth condition)
    (hdepth : condition.lexemes.length ≤ depth') : Within depth' condition := by
  induction depth' generalizing depth condition with
  | zero =>
    obtain ⟨first, rest, hfirst, -⟩ := condition.exists_first
    rw [hfirst] at hdepth
    cases hdepth
  | succ depth' ih =>
    cases depth with
    | zero => exact within_of_isTest h _
    | succ depth =>
      refine h.imp joinedBy_or fun conjunction hconjunction h => ?_
      refine h.imp joinedBy_and fun part hpart h => ?_
      obtain h | ⟨inner, h, rfl⟩ := h
      · exact .inl h
      · refine .inr ⟨inner, ih h ?_, rfl⟩
        rw [lexemes, List.length_append, List.length_cons] at hpart
        omega

end SnapshotSql.Condition

namespace SnapshotSql.Parser
open Condition

variable {join : Condition → Condition → Condition} {item : Condition → Prop} {parser : Parser Condition}
  {condition : Condition} {follow : List Lexeme → Prop}

/-- What stands behind a condition does not make it longer. -/
def CondEnd (more : List Lexeme) : Prop :=
  firstOf more ≠ .symbol .openParen ∧ firstOf more ≠ .keyword "AND" ∧ firstOf more ≠ .keyword "OR"

section
variable {word : String} (hfollow : ∀ more, follow more → firstOf more ≠ .keyword word)
include hfollow

theorem chainTail_parses {fuel : Nat} {rest : List Condition} (first : Condition) (hfuel : rest.length ≤ fuel)
    (hrest : ∀ part ∈ rest,
      Parses parser part.lexemes part fun more => follow more ∨ firstOf more = .keyword word) :
    Parses (chainTail word join parser fuel first) (rest.flatMap fun part => .keyword word :: part.lexemes)
      (rest.foldl join first) follow := by
  induction rest generalizing fuel first with
  | nil =>
    cases fuel with
    | zero => exact parses_pure
    | succ fuel => exact parses_declined (fun more hmore => by simpa using hfollow more hmore) parses_pure
  | cons part rest ih =>
    obtain ⟨hpart, hrest⟩ := List.forall_mem_cons.mp hrest
    cases fuel with
    | zero => cases hfuel
    | succ fuel =>
      refine parses_accepted (by simp) nofun (hpart.bind (ih _ (Nat.le_of_succ_le_succ hfuel) hrest) ?_)
      intro more hmore
      cases rest with
      | nil => exact .inl hmore
      | cons => exact .inr rfl

/-- Behind an item of a chain stands what may stand behind the chain, or the word again. -/
theorem chain_parses (hjoin : JoinedBy word join)
    (hitem : ∀ part, item part →
      Parses parser part.lexemes part fun more => follow more ∨ firstOf more = .keyword word)
    (h : Chained join item condition) :
    Parses (chain word join parser) condition.lexemes condition follow := by
  obtain ⟨first, rest, hparts, rfl⟩ := h
  obtain ⟨hfirst, hrest⟩ := List.forall_mem_cons.mp hparts
  rw [lexemes_foldl hjoin]
  refine (hitem first hfirst).bind (parses_get fun tokens ⟨more, _, htokens⟩ => ?_) ?_
  · refine chainTail_parses hfollow first ?_ fun part hpart => hitem part (hrest part hpart)
    have hlength := congrArg List.length htokens
    have hparts := length_le_flatMap rest (.keyword word) Condition.lexemes
    rw [List.length_map, List.length_append] at hlength
    omega
  · intro more hmore
    cases rest with
    | nil => exact .inl hmore
    | cons => exact .inr rfl

end

theorem atSubquery_parses :
    Parses atSubquery [] false fun more => firstOf (more.drop 1) ≠ .keyword "SELECT" := by
  intro tokens rest htokens hrest
  have hsecond : ((rest.drop 1).headD lastToken).lexeme ≠ .keyword "SELECT" := by
    rwa [lexeme_headD, List.map_drop]
  have hstep : atSubquery rest = .ok (decide ((rest.headD lastToken).lexeme = .symbol .openParen) &&
      decide (((rest.drop 1).headD lastToken).lexeme = .keyword "SELECT"), rest) := rfl
  rw [List.map_eq_nil_iff.mp htokens, List.nil_append, hstep, decide_eq_false hsecond, Bool.and_false]

theorem primary_parses {shape : Condition → Prop}
    (hinner : ∀ part, shape part → Parses parser part.lexemes part CondEnd) (h : Primary shape condition) :
    Parses (primary parser) condition.lexemes condition NoCall := by
  obtain h | ⟨part, h, rfl⟩ := h
  · obtain ⟨first, rest, hfirst, hopen, -⟩ := h.exists_first
    rw [hfirst]
    refine parses_current_cons fun token htoken => ?_
    rw [if_neg (htoken ▸ hopen), ← hfirst]
    exact comparison_parses h
  · obtain ⟨first, rest, hfirst, hselect⟩ := part.exists_first
    have hclosed : Parses (do
          let part ← parser
          expectSymbol .closeParen "')'"
          return Condition.group part)
        (part.lexemes ++ [.symbol .closeParen]) (.group part) NoCall :=
      (hinner part h).bind (parses_expectSymbol _ _ parses_pure) fun _ _ => ⟨nofun, nofun, nofun⟩
    refine parses_current_cons fun token htoken => ?_
    rw [if_pos htoken]
    refine atSubquery_parses.bind (parses_advance nofun hclosed) fun more _ => ?_
    simpa [firstOf, hfirst] using hselect

theorem conditionWithin_parses {depth : Nat} (h : Within depth condition) :
    Parses (conditionWithin depth) condition.lexemes condition CondEnd := by
  induction depth generalizing condition with
  | zero => exact (comparison_parses h).mono fun _ hmore => hmore.1
  | succ depth ih =>
    refine chain_parses (fun _ hmore => hmore.2.2) joinedBy_or (fun conjunction h => ?_) h
    refine chain_parses ?_ joinedBy_and (fun part h => (primary_parses (fun _ => ih) h).mono ?_) h
    · rintro more (hmore | hmore)
      · exact hmore.2.1
      · simp [hmore]
    · rintro more ((hmore | hmore) | hmore)
      · exact hmore.1
      · simp [NoCall, hmore]
      · simp [NoCall, hmore]

theorem condition_parses {depth : Nat} (h : Within depth condition) :
    Parses Parser.condition condition.lexemes condition CondEnd :=
  parses_get fun tokens ⟨more, _, htokens⟩ => conditionWithin_parses (h.deepen (by
    have hlength := congrArg List.length htokens
    rw [List.length_map, List.length_append] at hlength
    omega))

end SnapshotSql.Parser
