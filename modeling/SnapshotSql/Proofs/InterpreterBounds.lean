import SnapshotSql.Interpreter
import SnapshotSql.Proofs.StatementCuts

/-! # Runs that the interpreter breaks off

A numeral of too many digits breaks off every run of its text, and so do calls that nest too deeply. A run that
stays far from the bounds is not broken off: its numerals are runs of digits inside the text, also where the text
is cut into statements.
-/
namespace SnapshotSql

variable {size : Nat} {text piece : Text}

/-! ## Numerals inside a text -/

theorem Text.RunsWithin.of_infix (h : RunsWithin size text) (hpart : piece <:+: text) : RunsWithin size piece :=
  fun run hrun => h run (hrun.trans hpart)

theorem Text.trim_infix (text : Text) : trim text <:+: text := by
  have hfront := List.dropWhile_suffix isBlank (l := (text.dropWhile isBlank).reverse)
  have hback : trim text <+: text.dropWhile isBlank := by
    rw [← List.reverse_suffix, trim, trimWhere, List.reverse_reverse]
    exact hfront
  exact hback.isInfix.trans (List.dropWhile_suffix isBlank).isInfix

namespace SourceText

theorem infix_of_mem_pieces {quote : Option CodePoint} (h : piece ∈ pieces quote text) : piece <:+: text := by
  induction text generalizing quote piece with
  | nil =>
    obtain rfl := List.mem_singleton.mp h
    exact List.infix_rfl
  | cons c text ih =>
    -- The character goes in front of the first piece, which begins the text behind it.
    have hextend : ∀ quote, piece ∈ pieces.extend c (pieces quote text) → piece <:+: c :: text := by
      intro quote hmem
      obtain ⟨first, more, heq⟩ := List.exists_cons_of_ne_nil (pieces_ne_nil quote text)
      rw [heq, pieces.extend] at hmem
      rcases List.mem_cons.mp hmem with rfl | hmore
      · obtain ⟨rest, rfl, -⟩ := pieces_prefix heq
        exact (List.prefix_append (c :: first) rest).isInfix
      · have hlater : piece ∈ pieces quote text := heq ▸ List.mem_cons_of_mem _ hmore
        exact List.infix_cons (ih hlater)
    unfold pieces at h
    split at h
    · split at h
      · rcases List.mem_cons.mp h with rfl | hmore
        · exact List.nil_infix
        · exact List.infix_cons (ih hmore)
      · exact hextend _ h
    · exact hextend _ h

theorem infix_of_mem_statements (h : piece ∈ statements text) : piece <:+: text := by
  obtain ⟨cut, hcut, rfl⟩ := List.mem_map.mp (List.mem_filter.mp h).1
  exact (Text.trim_infix cut).trans (infix_of_mem_pieces hcut)

end SourceText

namespace Lexer

theorem integerLength_le (h : Text.RunsWithin size text) : integerLength text ≤ size := by
  unfold integerLength
  split
  · next mantissa htaken =>
    dsimp only
    split
    · obtain ⟨whole, fraction, hdigits, -, rfl⟩ := takeMantissa_false htaken
      obtain ⟨rest, rfl, -⟩ := takeMantissa_rest htaken
      refine h mantissa (List.prefix_append _ _).isInfix (List.all_eq_true.mpr fun c hc => ?_)
      simp [Text.isWordChar, hdigits c (List.mem_append_left _ hc)]
    · exact Nat.zero_le _
  · exact Nat.zero_le _

theorem longestInteger_le {skip : Nat} (h : Text.RunsWithin size text) : longestInteger skip text ≤ size := by
  induction text generalizing skip with
  | nil => exact Nat.zero_le _
  | cons c text ih =>
    have hlater (skip : Nat) : longestInteger skip text ≤ size :=
      ih (h.of_infix (List.suffix_cons c text).isInfix)
    unfold longestInteger
    split
    · exact hlater _
    · split
      · exact hlater 0
      · refine max_le (integerLength_le h) ?_
        split
        · exact hlater _
        · exact Nat.zero_le _

end Lexer

theorem longestRead_le {texts : List Text} (h : ∀ text ∈ texts, Text.RunsWithin size text) :
    longestRead texts ≤ size := by
  induction texts with
  | nil => exact Nat.zero_le _
  | cons text texts ih =>
    obtain ⟨htext, hmore⟩ := List.forall_mem_cons.mp h
    refine max_le (Lexer.longestInteger_le (htext.of_infix (Text.trim_infix text))) ?_
    split
    · exact ih hmore
    · exact Nat.zero_le _

theorem numeralLength_le (h : Text.RunsWithin size text) : numeralLength text ≤ size := by
  have htrimmed := h.of_infix (Text.trim_infix text)
  refine longestRead_le fun piece hpiece => ?_
  split at hpiece
  · exact htrimmed.of_infix (SourceText.infix_of_mem_statements hpiece)
  · rwa [List.mem_singleton.mp hpiece]

/-! ## Statements that need nothing -/

theorem Statement.filter?_eq_none {statement : Statement} (h : statement.conditions = []) :
    statement.filter? = none := by
  cases statement with
  | createView definition => simp_all [conditions, filter?, Select.conditions]
  | select query => simp_all [conditions, filter?, Select.conditions]
  | update change => simp_all [conditions, filter?]
  | delete deletion => simp_all [conditions, filter?]
  | _ => rfl

/-- A statement needs nothing if it has no condition and casts no row. -/
theorem Database.need_eq_zero {database : Database} {statement : Statement} (bound : Bound)
    (hconditions : statement.conditions = []) (hrows : database.rowsToCast statement = []) :
    database.need statement bound = 0 := by
  have hfilter := Statement.filter?_eq_none hconditions
  cases bound <;> simp [need, Statement.readNeed, rowsNeed, castNeeds, filterCalls, hconditions, hrows, hfilter]

/-! ## Where a run is broken off -/

namespace Interpreter

variable {interpreter : Interpreter} {database : Database} {limit : Int} {sql : Text}

def BreaksOff (interpreter : Interpreter) (database : Database) (limit : Int) (sql : Text) : Prop :=
  interpreter.exceeded? database limit sql ≠ none

/-- A text needs more than there is: it has a numeral of too many digits, or it cannot be carried out but with
too much of something else. -/
def Exceeds (interpreter : Interpreter) (database : Database) (limit : Int) (sql : Text) : Prop :=
  interpreter.digits < numeralLength sql ∨ ∃ bound, interpreter.most bound < database.textNeed limit sql bound

theorem breaksOff_of_exceeds (h : interpreter.Exceeds database limit sql) :
    interpreter.BreaksOff database limit sql := by
  unfold BreaksOff exceeded?
  split
  · exact Option.some_ne_none _
  · next hdigits =>
    obtain hlong | ⟨bound, hneed⟩ := h
    · exact absurd hlong hdigits
    · exact interpreter.bounded database limit sql bound hneed

theorem not_breaksOff_of_allow (h : interpreter.Allow database limit sql) :
    ¬ interpreter.BreaksOff database limit sql := by
  obtain ⟨size, -, hdigits, hruns, -⟩ := h.values
  have hnumerals := numeralLength_le hruns
  rw [BreaksOff, exceeded?, if_neg (by omega), not_not]
  exact interpreter.spares database limit sql h

end Interpreter

end SnapshotSql
