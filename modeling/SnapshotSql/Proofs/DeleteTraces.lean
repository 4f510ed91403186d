import SnapshotSql.Proofs.ReferenceRows

/-! # A DELETE as a trace of answers

A DELETE asks every foreign key that points at the table of a wave about that wave, wave after wave.
Each answer is one step on the waves and staged tables so far: nothing, one more wave, or references
set to null. The trace of a DELETE asks exactly the questions of the waves it ends with, in their order;
then the rows in the waves are taken out. What holds of a DELETE is derived from single steps.
-/
namespace SnapshotSql

/-! ## Traces -/

/-- Steps one after the other, each for one event. -/
inductive Trace {σ κ : Type} (step : σ → κ → σ → Prop) : σ → List κ → σ → Prop where
  | nil (state : σ) : Trace step state [] state
  | cons {state middle last : σ} {event : κ} {events : List κ} (first : step state event middle)
      (rest : Trace step middle events last) : Trace step state (event :: events) last

namespace Trace

variable {σ κ : Type} {step : σ → κ → σ → Prop} {first middle last : σ} {events more : List κ}

theorem append (h : Trace step first events middle) (h' : Trace step middle more last) :
    Trace step first (events ++ more) last := by
  induction h with
  | nil => exact h'
  | cons hstep _ ih => exact .cons hstep (ih h')

theorem of_append (h : Trace step first (events ++ more) last) :
    ∃ middle, Trace step first events middle ∧ Trace step middle more last := by
  induction events generalizing first with
  | nil => exact ⟨first, .nil first, h⟩
  | cons event events ih =>
    cases h with
    | cons hstep hrest =>
      obtain ⟨middle, hbefore, hafter⟩ := ih hrest
      exact ⟨middle, .cons hstep hbefore, hafter⟩

/-- What every step keeps, the whole trace keeps. -/
theorem invariant (holds : σ → Prop)
    (hstep : ∀ state event next, step state event next → holds state → holds next)
    (h : Trace step first events last) (hfirst : holds first) : holds last := by
  induction h with
  | nil => exact hfirst
  | cons hone _ ih => exact ih (hstep _ _ _ hone hfirst)

/-- Of the events of a kind there is a last one; the trace is cut at its step. -/
theorem exists_last (kind : κ → Prop) (h : Trace step first events last)
    (hkind : ∃ event ∈ events, kind event) :
    ∃ before event after state next, events = before ++ event :: after ∧ kind event ∧
      (∀ later ∈ after, ¬ kind later) ∧
      Trace step first before state ∧ step state event next ∧ Trace step next after last := by
  induction h with
  | nil => simp at hkind
  | @cons state middle last event events hstep hrest ih =>
    by_cases htail : ∃ later ∈ events, kind later
    · obtain ⟨before, found, after, s, t, rfl, hfound, hlast, hbefore, hs, hafter⟩ := ih htail
      exact ⟨event :: before, found, after, s, t, rfl, hfound, hlast, .cons hstep hbefore, hs, hafter⟩
    · obtain ⟨found, hmem, hfound⟩ := hkind
      have hevent : kind event := by
        rcases List.mem_cons.mp hmem with rfl | hmem
        · exact hfound
        · exact absurd ⟨found, hmem, hfound⟩ htail
      push Not at htail
      exact ⟨[], event, events, state, middle, rfl, hevent, htail, .nil state, hstep, hrest⟩

end Trace

namespace Integrity

/-! ## Steps of a DELETE -/

/-- What a DELETE has decided so far: the waves, the oldest first, and the staged tables. -/
structure Progress where
  waves : List Wave
  staged : Scratch

/-- A foreign key that is asked about something that happens to the table it points at. -/
structure Question (κ : Type) where
  about : κ
  child : Text
  foreignKey : ForeignKey

def questionsAbout {κ : Type} (database : Database) (table : Text) (about : κ) : List (Question κ) :=
  (database.referencing table).map fun reference => ⟨about, reference.1, reference.2⟩

variable {database : Database}

theorem mem_questionsAbout {κ : Type} (table : Text) (about : κ) (question : Question κ) :
    question ∈ questionsAbout database table about ↔ question.about = about ∧
      question.foreignKey ∈ database.foreignKeys question.child ∧
      question.foreignKey.refTable = table := by
  simp only [questionsAbout, List.mem_map, Prod.exists]
  constructor
  · rintro ⟨child, foreignKey, hmem, rfl⟩
    exact ⟨rfl, (Database.mem_referencing ..).mp hmem⟩
  · rintro ⟨rfl, hmem⟩
    exact ⟨question.child, question.foreignKey, (Database.mem_referencing ..).mpr hmem, rfl⟩

def Wave.questions (database : Database) (wave : Wave) : List (Question Wave) :=
  questionsAbout database wave.table wave

def Progress.rows (database : Database) (progress : Progress) (table : Text) : List Row :=
  Staging.rowsIn database progress.staged table

/-- The positions of the rows that a wave concerns through a foreign key, given the parent rows. -/
def Question.affected (database : Database) (question : Question Wave) (progress : Progress)
    (parents : List Row) : List Nat :=
  referringTo question.foreignKey
    (lostKeys question.foreignKey parents question.about.positions
      (doomed progress.waves question.about.table))
    (progress.rows database question.child) (doomed progress.waves question.child)

/-- The waves and staged tables after an answer that concerns the rows at some positions. -/
inductive Answer (database : Database) (before : Progress) (question : Question Wave)
    (positions : List Nat) : Progress → Prop where
  | spare (hnone : positions = []) : Answer database before question positions before
  | cascade (hsome : positions ≠ []) (haction : question.foreignKey.onDelete = .cascade) :
      Answer database before question positions
        ⟨before.waves ++ [⟨question.child, positions⟩], before.staged⟩
  | clear (hsome : positions ≠ []) (haction : question.foreignKey.onDelete = .setNull) :
      Answer database before question positions
        ⟨before.waves, before.staged.insert question.child
          (changeAt (before.rows database question.child) positions (nullOut question.foreignKey))⟩

structure DeleteStep (database : Database) (before : Progress) (question : Question Wave)
    (after : Progress) : Prop where
  wave_mem : question.about ∈ before.waves
  foreignKey_mem : question.foreignKey ∈ database.foreignKeys question.child
  refTable_eq : question.foreignKey.refTable = question.about.table
  answer : ∃ parents, (parents = database.tableRows question.about.table ∨
      parents = before.rows database question.about.table) ∧
    Answer database before question (question.affected database before parents) after

abbrev DeleteTrace (database : Database) : Progress → List (Question Wave) → Progress → Prop :=
  Trace (DeleteStep database)

/-- A question about a wave that is there, by a foreign key that points at its table. -/
structure Question.Asked (database : Database) (before : Progress) (question : Question Wave) :
    Prop where
  wave_mem : question.about ∈ before.waves
  foreignKey_mem : question.foreignKey ∈ database.foreignKeys question.child
  refTable_eq : question.foreignKey.refTable = question.about.table

theorem DeleteStep.asked {before after : Progress} {question : Question Wave}
    (h : DeleteStep database before question after) : question.Asked database before :=
  ⟨h.wave_mem, h.foreignKey_mem, h.refTable_eq⟩

theorem answer_of_runs {waves : List Wave} {wave : Wave} {parents : List Row} {child : Text}
    {foreignKey : ForeignKey} {before after : Scratch} {next : Option Wave}
    (h : Staging.Runs (answerDelete database waves wave parents child foreignKey) before next after) :
    Answer database ⟨waves, before⟩ ⟨wave, child, foreignKey⟩
      (Question.affected database ⟨wave, child, foreignKey⟩ ⟨waves, before⟩ parents)
      ⟨waves ++ next.toList, after⟩ := by
  simp only [answerDelete, Staging.runs_bind, Staging.runs_rows] at h
  obtain ⟨_, middle, ⟨rfl, rfl⟩, h⟩ := h
  simp only [Question.affected, Progress.rows]
  generalize referringTo foreignKey _ (Staging.rowsIn database middle child) _ = positions at h ⊢
  by_cases hnone : positions = []
  · rw [if_pos (List.isEmpty_iff.mpr hnone)] at h
    obtain ⟨rfl, rfl⟩ := Staging.runs_pure.mp h
    simpa using Answer.spare hnone
  · rw [if_neg fun hempty => hnone (List.isEmpty_iff.mp hempty)] at h
    cases haction : foreignKey.onDelete with
    | restrict =>
      simp only [haction] at h
      exact absurd h Staging.runs_throw
    | cascade =>
      simp only [haction] at h
      obtain ⟨rfl, rfl⟩ := Staging.runs_pure.mp h
      exact Answer.cascade hnone haction
    | setNull =>
      simp only [haction, Staging.runs_bind, Staging.runs_setRows, Staging.runs_pure] at h
      obtain ⟨_, _, rfl, rfl, rfl⟩ := h
      rw [Option.toList_none, List.append_nil]
      exact Answer.clear hnone haction

def parentRows (database : Database) (wave : Wave) (staged : Bool) (before : Scratch) : List Row :=
  if staged then Staging.rowsIn database before wave.table else database.tableRows wave.table

theorem parentRows_eq (database : Database) (wave : Wave) (staged : Bool) (before : Scratch) :
    parentRows database wave staged before = database.tableRows wave.table ∨
      parentRows database wave staged before = Staging.rowsIn database before wave.table := by
  cases staged with
  | false => exact Or.inl rfl
  | true => exact Or.inr rfl

/-- The first answer of a list of foreign keys, and those of the others after it. -/
theorem of_spreadDelete_cons {wave : Wave} {staged : Bool} {child : Text} {foreignKey : ForeignKey}
    {references : List (Text × ForeignKey)} {waves next : List Wave} {before after : Scratch}
    (h : Staging.Runs (spreadDelete database wave staged ((child, foreignKey) :: references) waves)
      before next after) :
    ∃ answer middle more,
      Staging.Runs (answerDelete database waves wave (parentRows database wave staged before) child
        foreignKey) before answer middle ∧
      Staging.Runs (spreadDelete database wave staged references (waves ++ answer.toList))
        middle more after ∧ next = answer.toList ++ more := by
  unfold spreadDelete at h
  extract_lets spread at h
  have hspread : Staging.Runs (spread (parentRows database wave staged before)) before next after := by
    cases staged with
    | false =>
      obtain ⟨_, _, hrows, h⟩ := Staging.runs_bind.mp h
      obtain ⟨rfl, rfl⟩ := Staging.runs_pure.mp hrows
      exact h
    | true =>
      obtain ⟨_, _, hrows, h⟩ := Staging.runs_bind.mp h
      obtain ⟨rfl, rfl⟩ := Staging.runs_rows.mp hrows
      exact h
  obtain ⟨answer, middle, hanswer, hmore⟩ := Staging.runs_bind.mp hspread
  refine ⟨answer, middle, ?_⟩
  cases answer with
  | none =>
    refine ⟨next, hanswer, ?_, rfl⟩
    rwa [Option.toList_none, List.append_nil]
  | some later =>
    simp only [Staging.runs_bind, Staging.runs_pure] at hmore
    obtain ⟨more, _, hmore, rfl, rfl⟩ := hmore
    exact ⟨more, hanswer, hmore, rfl⟩

theorem trace_of_spreadDelete {wave : Wave} {staged : Bool} {references : List (Text × ForeignKey)}
    {waves next : List Wave} {before after : Scratch} (hwave : wave ∈ waves)
    (hreferences : ∀ reference ∈ references, reference ∈ database.referencing wave.table)
    (h : Staging.Runs (spreadDelete database wave staged references waves) before next after) :
    DeleteTrace database ⟨waves, before⟩
      (references.map fun reference => ⟨wave, reference.1, reference.2⟩) ⟨waves ++ next, after⟩ := by
  induction references generalizing waves next before with
  | nil =>
    obtain ⟨rfl, rfl⟩ := Staging.runs_pure.mp h
    simpa using Trace.nil _
  | cons reference references ih =>
    obtain ⟨hfirst, hrest⟩ := List.forall_mem_cons.mp hreferences
    obtain ⟨hmem, htable⟩ := (Database.mem_referencing ..).mp hfirst
    obtain ⟨answer, middle, more, hanswer, hmore, rfl⟩ := of_spreadDelete_cons h
    have hstep : DeleteStep database ⟨waves, before⟩ ⟨wave, reference.1, reference.2⟩
        ⟨waves ++ answer.toList, middle⟩ :=
      ⟨hwave, hmem, htable, _, parentRows_eq .., answer_of_runs hanswer⟩
    have htail := ih (List.mem_append_left _ hwave) hrest hmore
    rw [List.append_assoc] at htail
    exact .cons hstep htail

theorem trace_of_deleteDepth {level waves next : List Wave} {before after : Scratch}
    (hlevel : ∀ wave ∈ level, wave ∈ waves)
    (h : Staging.Runs (deleteDepth database level waves) before next after) :
    DeleteTrace database ⟨waves, before⟩ (level.flatMap (Wave.questions database))
      ⟨waves ++ next, after⟩ := by
  induction level generalizing waves next before with
  | nil =>
    obtain ⟨rfl, rfl⟩ := Staging.runs_pure.mp h
    simpa using Trace.nil _
  | cons wave level ih =>
    simp only [deleteDepth, Staging.runs_bind, Staging.runs_get, Staging.runs_pure] at h
    obtain ⟨_, _, ⟨rfl, rfl⟩, spread, middle, hspread, more, _, hmore, rfl, rfl⟩ := h
    have hfirst := trace_of_spreadDelete (hlevel wave List.mem_cons_self) (fun _ h => h) hspread
    have hrest := ih (fun other hother =>
      List.mem_append_left _ (hlevel other (List.mem_cons_of_mem _ hother))) hmore
    rw [List.append_assoc] at hrest
    exact hfirst.append hrest

theorem trace_of_deleteWaves {limit : Int} {depths : Nat} {level waves result : List Wave}
    {before after : Scratch} (hlevel : ∀ wave ∈ level, wave ∈ waves)
    (h : Staging.Runs (deleteWaves database limit depths level waves) before result after) :
    ∃ later, result = waves ++ later ∧ DeleteTrace database ⟨waves, before⟩
      ((level ++ later).flatMap (Wave.questions database)) ⟨result, after⟩ := by
  induction depths generalizing level waves before with
  | zero =>
    cases level with
    | nil =>
      obtain ⟨rfl, rfl⟩ := Staging.runs_pure.mp h
      exact ⟨[], by simp, .nil _⟩
    | cons wave level => exact absurd h Staging.runs_throw
  | succ depths ih =>
    cases level with
    | nil =>
      obtain ⟨rfl, rfl⟩ := Staging.runs_pure.mp h
      exact ⟨[], by simp, .nil _⟩
    | cons wave level =>
      simp only [deleteWaves, Staging.runs_bind] at h
      obtain ⟨next, middle, hnext, h⟩ := h
      obtain ⟨later, rfl, hrest⟩ := ih (fun _ hmem => List.mem_append_right _ hmem) h
      refine ⟨next ++ later, by rw [List.append_assoc], ?_⟩
      rw [List.flatMap_append]
      exact (trace_of_deleteDepth hlevel hnext).append hrest

/-! ## The removal of rows -/

theorem nodup_eraseDups (names : List Text) : names.eraseDups.Nodup := by
  induction hlength : names.length using Nat.strongRecOn generalizing names with
  | ind length ih =>
    cases names with
    | nil => simp
    | cons name names =>
      rw [List.eraseDups_cons, List.nodup_cons]
      have hshorter := List.length_filter_le (fun other => !other == name) names
      rw [List.length_cons] at hlength
      exact ⟨by simp [List.mem_eraseDups], ih _ (by omega) _ rfl⟩

theorem rowsExcept_nil (rows : List Row) : rowsExcept rows [] = rows := by
  simp [rowsExcept, List.zipIdx_map_fst]

private theorem rowsIn_of_removeDoomed {waves : List Wave} {table : Text} {before after : Scratch}
    (h : Staging.Runs (removeDoomed database waves table) before () after) (other : Text) :
    Staging.rowsIn database after other =
      if other = table then rowsExcept (Staging.rowsIn database before other) (doomed waves other)
      else Staging.rowsIn database before other := by
  unfold removeDoomed at h
  by_cases hnone : doomed waves table = []
  · simp only [hnone, List.isEmpty_nil, Bool.not_true, Bool.false_eq_true, if_false,
      Staging.runs_pure] at h
    obtain ⟨-, rfl⟩ := h
    split
    · next heq => rw [heq, hnone, rowsExcept_nil]
    · rfl
  · have hsome : (doomed waves table).isEmpty = false := by simpa using hnone
    simp only [hsome, Bool.not_false, if_true, Staging.runs_bind, Staging.runs_rows,
      Staging.runs_setRows] at h
    obtain ⟨_, _, ⟨rfl, rfl⟩, rfl⟩ := h
    rw [Staging.rowsIn_insert]
    split
    · next heq => rw [heq]
    · rfl

private theorem rowsIn_of_removals {waves : List Wave} {tables : List Text} {before after : Scratch}
    (hnodup : tables.Nodup)
    (h : Staging.Runs (tables.forM (removeDoomed database waves)) before () after) (other : Text) :
    Staging.rowsIn database after other =
      if other ∈ tables then rowsExcept (Staging.rowsIn database before other) (doomed waves other)
      else Staging.rowsIn database before other := by
  induction tables generalizing before with
  | nil =>
    obtain ⟨-, rfl⟩ := Staging.runs_pure.mp h
    simp
  | cons table tables ih =>
    change Staging.Runs (removeDoomed database waves table >>= fun _ => _) before () after at h
    obtain ⟨_, middle, hfirst, hrest⟩ := Staging.runs_bind.mp h
    obtain ⟨hnew, hnodup⟩ := List.nodup_cons.mp hnodup
    rw [ih hnodup hrest, rowsIn_of_removeDoomed hfirst]
    by_cases heq : other = table
    · subst heq
      simp [hnew]
    · simp [heq]

/-- The cascades that a wave sets off end with these waves and staged tables. -/
def CascadesTo (database : Database) (limit : Int) (wave : Wave) (last : Progress) : Prop :=
  Staging.Runs (deleteWaves database limit (depthsWithin limit) [wave] [wave]) .empty last.waves
    last.staged

/-- A DELETE that is not refused: its waves and the tables as its cascades leave them, which is a trace
that answers every question of every wave, and then all rows but those in the waves. -/
theorem trace_of_delete {limit : Int} {table : Text} {positions : List Nat} {count : Nat}
    {after : Scratch}
    (h : Staging.Runs (delete database limit table positions) .empty count after) :
    count = positions.length ∧ ∃ last : Progress,
      CascadesTo database limit ⟨table, positions⟩ last ∧
      DeleteTrace database ⟨[⟨table, positions⟩], .empty⟩
        (last.waves.flatMap (Wave.questions database)) last ∧
      ∀ other, Staging.rowsIn database after other =
        rowsExcept (last.rows database other) (doomed last.waves other) := by
  simp only [delete, Staging.runs_bind, Staging.runs_pure] at h
  obtain ⟨waves, staged, hwaves, _, _, hremove, rfl, rfl⟩ := h
  obtain ⟨later, rfl, htrace⟩ := trace_of_deleteWaves (fun _ hmem => hmem) hwaves
  refine ⟨rfl, ⟨_, staged⟩, hwaves, htrace, fun other => ?_⟩
  rw [rowsIn_of_removals (nodup_eraseDups _) hremove]
  split
  · rfl
  · next hmem =>
    have hnone : doomed ([⟨table, positions⟩] ++ later) other = [] := by
      rw [List.eq_nil_iff_forall_not_mem]
      intro position hposition
      obtain ⟨wave, hwave, rfl, -⟩ := (mem_doomed ..).mp hposition
      exact hmem (List.mem_eraseDups.mpr (List.mem_map_of_mem hwave))
    rw [hnone, rowsExcept_nil]
    rfl

end Integrity

end SnapshotSql
