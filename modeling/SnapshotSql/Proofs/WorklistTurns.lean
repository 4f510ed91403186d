import Mathlib.Algebra.BigOperators.Group.List.Basic
import Mathlib.Data.List.Nodup
import Mathlib.Data.List.Perm.Subperm
import SnapshotSql.Proofs.DeleteEffects
import SnapshotSql.Proofs.RefusedDeletes

/-! # The waves of a DELETE, turn by turn

The cascades of a DELETE are a loop over a queue of waves. A turn takes the first wave and puts its question to
one foreign key after the other; a wave that is answered goes to the end of the queue, one deeper. A row joins a
wave only while it is in none and no empty wave is queued, so there are no more turns than rows besides the first,
whichever way the references go and however deep the loop may get.
-/
namespace SnapshotSql

def Database.rowCount (database : Database) : Nat :=
  (database.rows.entries.flatMap (·.2)).length

namespace Integrity

variable {database : Database} {limit : Int}

/-! ## The loop -/

/-- Where the loop stands: the waves that have been taken, the foreign keys still to be asked about the last of
them, whether its rows are those staged, and the waves that wait, each wave with its depth. -/
structure Worklist where
  taken : List (Wave × Nat)
  pending : List (Text × ForeignKey)
  fromStaged : Bool
  queue : List (Wave × Nat)
  staged : Scratch

namespace Worklist

def start (table : Text) (positions : List Nat) : Worklist :=
  ⟨[], [], false, [(⟨table, positions⟩, 0)], .empty⟩

/-- All waves so far, in the order in which they have been queued. -/
def waves (list : Worklist) : List Wave :=
  (list.taken ++ list.queue).map (·.1)

def progress (list : Worklist) : Progress :=
  ⟨list.waves, list.staged⟩

end Worklist

/-- One step of the loop: a wave is taken, or one foreign key answers the question of the last one taken. -/
inductive Turn (database : Database) (limit : Int) : Worklist → Worklist → Prop where
  | take {taken queue : List (Wave × Nat)} {wave : Wave} {depth : Nat} {fromStaged : Bool} {staged : Scratch}
      (hdepth : (depth : Int) ≤ limit) :
      Turn database limit ⟨taken, [], fromStaged, (wave, depth) :: queue, staged⟩
        ⟨taken ++ [(wave, depth)], database.referencing wave.table, staged.contains wave.table, queue, staged⟩
  | ask {taken queue : List (Wave × Nat)} {wave : Wave} {depth : Nat} {child : Text} {foreignKey : ForeignKey}
      {references : List (Text × ForeignKey)} {fromStaged : Bool} {staged after : Scratch} {answer : Option Wave}
      (hanswer : Staging.Runs (answerDelete database ((taken ++ [(wave, depth)] ++ queue).map (·.1)) wave
        (parentRows database wave fromStaged staged) child foreignKey) staged answer after) :
      Turn database limit ⟨taken ++ [(wave, depth)], (child, foreignKey) :: references, fromStaged, queue, staged⟩
        ⟨taken ++ [(wave, depth)], references, fromStaged,
          queue ++ answer.toList.map fun next => (next, depth + 1), after⟩

abbrev Turns (database : Database) (limit : Int) : Worklist → Worklist → Prop :=
  Relation.ReflTransGen (Turn database limit)

/-- The loop cannot go on: the next wave is too deep, or a foreign key refuses to answer. -/
inductive Stops (database : Database) (limit : Int) : Worklist → SqlError → Prop where
  | depth {taken queue : List (Wave × Nat)} {wave : Wave} {depth : Nat} {fromStaged : Bool} {staged : Scratch}
      (hdepth : limit < depth) :
      Stops database limit ⟨taken, [], fromStaged, (wave, depth) :: queue, staged⟩
        (.blocked (.depthLimit "DELETE" limit))
  | answer {taken queue : List (Wave × Nat)} {wave : Wave} {depth : Nat} {child : Text} {foreignKey : ForeignKey}
      {references : List (Text × ForeignKey)} {fromStaged : Bool} {staged : Scratch} {error : SqlError}
      (hanswer : Staging.Refused (answerDelete database ((taken ++ [(wave, depth)] ++ queue).map (·.1)) wave
        (parentRows database wave fromStaged staged) child foreignKey) staged error) :
      Stops database limit ⟨taken ++ [(wave, depth)], (child, foreignKey) :: references, fromStaged, queue, staged⟩
        error

def StopsAfter (database : Database) (limit : Int) (first : Worklist) (error : SqlError) : Prop :=
  ∃ last, Turns database limit first last ∧ Stops database limit last error

theorem StopsAfter.of_turns {first middle : Worklist} {error : SqlError} (h : Turns database limit first middle)
    (hstops : StopsAfter database limit middle error) : StopsAfter database limit first error := by
  obtain ⟨last, hturns, hlast⟩ := hstops
  exact ⟨last, h.trans hturns, hlast⟩

/-! ## What no turn changes -/

def Wave.Apart (wave other : Wave) : Prop :=
  wave.table = other.table → wave.positions.Disjoint other.positions

/-- The positions of some rows of the snapshot, at least one, and each only once. -/
structure Wave.Real (database : Database) (wave : Wave) : Prop where
  ne_nil : wave.positions ≠ []
  nodup : wave.positions.Nodup
  lt_length : ∀ position ∈ wave.positions, position < (database.tableRows wave.table).length

/-- No row is in two waves, and every wave after the first is of rows of the snapshot. -/
structure Progress.Spread (database : Database) (progress : Progress) : Prop where
  ne_nil : progress.waves ≠ []
  apart : progress.waves.Pairwise Wave.Apart
  real : ∀ wave ∈ progress.waves.tail, wave.Real database
  length_rows : ∀ table, (progress.rows database table).length = (database.tableRows table).length

theorem spread_start (table : Text) (positions : List Nat) :
    (Worklist.start table positions).progress.Spread database where
  ne_nil := by simp [Worklist.progress, Worklist.waves, Worklist.start]
  apart := List.pairwise_singleton _ _
  real := nofun
  length_rows _ := rfl

theorem nodup_referringTo (foreignKey : ForeignKey) (keys : List Text) (rows : List Row) (leftOut : List Nat) :
    (referringTo foreignKey keys rows leftOut).Nodup := by
  have hnodup : (rows.zipIdx.map (·.2)).Nodup := by
    rw [List.zipIdx_map_snd]
    exact List.nodup_range'
  exact hnodup.sublist (List.filter_sublist.map _)

theorem Progress.Spread.answer {before after : Progress} {question : Question Wave} {parents : List Row}
    (h : before.Spread database)
    (hanswer : Answer database before question (question.affected database before parents) after) :
    after.Spread database := by
  cases hanswer with
  | spare _ => exact h
  | cascade hsome _ =>
    have hnew (position : Nat) (hposition : position ∈ question.affected database before parents) :
        position ∉ doomed before.waves question.child ∧
          position < (database.tableRows question.child).length := by
      obtain ⟨hdoomed, row, -, hrow, -⟩ := (mem_referringTo ..).mp hposition
      refine ⟨hdoomed, ?_⟩
      rw [← h.length_rows]
      exact (List.getElem?_eq_some_iff.mp hrow).1
    refine ⟨by simp, List.pairwise_append.mpr ⟨h.apart, List.pairwise_singleton _ _, ?_⟩, ?_, h.length_rows⟩
    · intro wave hwave other hother htable position hposition hother'
      rw [List.mem_singleton] at hother
      subst hother
      exact (hnew position hother').1 ((mem_doomed ..).mpr ⟨wave, hwave, htable, hposition⟩)
    · rw [List.tail_append_of_ne_nil h.ne_nil]
      refine List.forall_mem_append.mpr ⟨h.real, List.forall_mem_singleton.mpr ?_⟩
      exact ⟨hsome, nodup_referringTo .., fun position hposition => (hnew position hposition).2⟩
  | clear _ _ =>
    refine ⟨h.ne_nil, h.apart, h.real, fun table => ?_⟩
    rw [← h.length_rows table]
    simp only [Progress.rows, Staging.rowsIn_insert]
    split
    · next heq =>
      subst heq
      simp [changeAt]
    · rfl

theorem Turn.spread {before after : Worklist} (h : Turn database limit before after)
    (hbefore : before.progress.Spread database) : after.progress.Spread database := by
  cases h with
  | take _ => simpa [Worklist.progress, Worklist.waves] using hbefore
  | @ask taken queue wave depth child foreignKey _ fromStaged staged _ answer hanswer =>
    have hafter := hbefore.answer (answer_of_runs hanswer)
    simpa [Worklist.progress, Worklist.waves, Function.comp_def] using hafter

theorem Turns.spread {first last : Worklist} (h : Turns database limit first last)
    (hfirst : first.progress.Spread database) : last.progress.Spread database := by
  induction h with
  | refl => exact hfirst
  | tail _ hturn ih => exact hturn.spread ih

/-! ## The number of turns -/

def places (waves : List Wave) : List (Text × Nat) :=
  waves.flatMap fun wave => wave.positions.map (wave.table, ·)

def allPlaces (database : Database) : List (Text × Nat) :=
  database.rows.entries.flatMap fun entry => (List.range entry.2.length).map (entry.1, ·)

theorem length_allPlaces (database : Database) : (allPlaces database).length = database.rowCount := by
  simp [allPlaces, Database.rowCount, List.length_flatMap]

theorem nodup_places {waves : List Wave} (hapart : waves.Pairwise Wave.Apart)
    (hnodup : ∀ wave ∈ waves, wave.positions.Nodup) : (places waves).Nodup := by
  refine List.nodup_flatMap.mpr ⟨fun wave hwave => (hnodup wave hwave).map fun _ _ h => (Prod.mk.inj h).2, ?_⟩
  refine hapart.imp fun {wave other} h place hplace hplace' => ?_
  obtain ⟨position, hposition, rfl⟩ := List.mem_map.mp hplace
  obtain ⟨position', hposition', heq⟩ := List.mem_map.mp hplace'
  obtain ⟨htable, rfl⟩ := Prod.mk.inj heq
  exact h htable.symm hposition hposition'

theorem mem_allPlaces {table : Text} {position : Nat} (h : position < (database.tableRows table).length) :
    (table, position) ∈ allPlaces database := by
  rw [Database.tableRows] at h
  cases hrows : database.rows.get? table with
  | none =>
    rw [hrows] at h
    exact absurd h (Nat.not_lt_zero _)
  | some rows =>
    rw [hrows] at h
    refine List.mem_flatMap.mpr ⟨(table, rows), (OrderedMap.mem_entries_iff ..).mpr hrows, ?_⟩
    exact List.mem_map.mpr ⟨position, List.mem_range.mpr h, rfl⟩

/-- Waves that share no row and that all have one are at most as many as the rows. -/
theorem length_le_rowCount {waves : List Wave} (hapart : waves.Pairwise Wave.Apart)
    (hreal : ∀ wave ∈ waves, wave.Real database) : waves.length ≤ database.rowCount := by
  have hsubset : places waves ⊆ allPlaces database := by
    intro place hplace
    obtain ⟨wave, hwave, hplace⟩ := List.mem_flatMap.mp hplace
    obtain ⟨position, hposition, rfl⟩ := List.mem_map.mp hplace
    exact mem_allPlaces ((hreal wave hwave).lt_length position hposition)
  have hlength : waves.length ≤ (places waves).length := by
    have hpos : ∀ length ∈ waves.map (·.positions.length), 1 ≤ length := by
      rintro _ hlength
      obtain ⟨wave, hwave, rfl⟩ := List.mem_map.mp hlength
      exact List.length_pos_iff.mpr (hreal wave hwave).ne_nil
    simpa [places, List.length_flatMap] using List.length_le_sum_of_one_le _ hpos
  calc waves.length ≤ (places waves).length := hlength
    _ ≤ (allPlaces database).length :=
      (List.subperm_of_subset (nodup_places hapart fun wave hwave => (hreal wave hwave).nodup) hsubset).length_le
    _ = database.rowCount := length_allPlaces database

theorem Progress.Spread.length_waves {progress : Progress} (h : progress.Spread database) :
    progress.waves.length ≤ 1 + database.rowCount := by
  have hlater := length_le_rowCount (h.apart.sublist (List.tail_sublist _)) h.real
  rw [List.length_tail] at hlater
  omega

/-! ## A DELETE is a run of the loop -/

def atDepth (depth : Nat) (waves : List Wave) : List (Wave × Nat) :=
  waves.map (·, depth)

@[simp] theorem map_atDepth (depth : Nat) (waves : List Wave) : (atDepth depth waves).map (·.1) = waves := by
  simp [atDepth, Function.comp_def]

@[simp] theorem atDepth_append (depth : Nat) (waves more : List Wave) :
    atDepth depth (waves ++ more) = atDepth depth waves ++ atDepth depth more :=
  List.map_append

/-- New waves come behind those that the queue has. -/
theorem map_append_atDepth (taken queue : List (Wave × Nat)) (depth : Nat) (more : List Wave) :
    (taken ++ queue).map (·.1) ++ more = (taken ++ (queue ++ atDepth depth more)).map (·.1) := by
  simp

/-- The first wave of the queue is taken. -/
theorem map_append_atDepth_cons (taken queue : List (Wave × Nat)) (depth : Nat) (wave : Wave) (level : List Wave) :
    (taken ++ (atDepth depth (wave :: level) ++ queue)).map (·.1) =
      (taken ++ [(wave, depth)] ++ (atDepth depth level ++ queue)).map (·.1) := by
  simp

section
variable {taken queue : List (Wave × Nat)} {wave : Wave} {depth depths : Nat} {fromStaged : Bool}
  {references : List (Text × ForeignKey)} {level waves next : List Wave} {before after : Scratch} {error : SqlError}

theorem turns_of_spreadDelete (hwaves : waves = (taken ++ [(wave, depth)] ++ queue).map (·.1))
    (h : Staging.Runs (spreadDelete database wave fromStaged references waves) before next after) :
    Turns database limit ⟨taken ++ [(wave, depth)], references, fromStaged, queue, before⟩
      ⟨taken ++ [(wave, depth)], [], fromStaged, queue ++ atDepth (depth + 1) next, after⟩ := by
  induction references generalizing waves queue next before with
  | nil =>
    obtain ⟨rfl, rfl⟩ := Staging.runs_pure.mp h
    rw [atDepth, List.map_nil, List.append_nil]
  | cons reference references ih =>
    subst hwaves
    obtain ⟨answer, middle, more, hanswer, hmore, rfl⟩ := of_spreadDelete_cons h
    have hrest := ih (map_append_atDepth _ queue (depth + 1) _) hmore
    rw [List.append_assoc, ← atDepth_append] at hrest
    exact .head (.ask hanswer) hrest

theorem stopsAfter_of_refused_spreadDelete (hwaves : waves = (taken ++ [(wave, depth)] ++ queue).map (·.1))
    (h : Staging.Refused (spreadDelete database wave fromStaged references waves) before error) :
    StopsAfter database limit ⟨taken ++ [(wave, depth)], references, fromStaged, queue, before⟩ error := by
  induction references generalizing waves queue before with
  | nil => exact absurd h Staging.refused_pure
  | cons reference references ih =>
    subst hwaves
    obtain hrefused | ⟨answer, middle, hanswer, hmore⟩ := of_refused_spreadDelete_cons h
    · exact ⟨_, .refl, .answer hrefused⟩
    · have hrest := ih (map_append_atDepth _ queue (depth + 1) _) hmore
      exact hrest.of_turns (.single (.ask hanswer))

theorem turns_of_deleteDepth (hdepth : (depth : Int) ≤ limit)
    (hwaves : waves = (taken ++ (atDepth depth level ++ queue)).map (·.1))
    (h : Staging.Runs (deleteDepth database level waves) before next after) :
    ∃ last, Turns database limit ⟨taken, [], fromStaged, atDepth depth level ++ queue, before⟩
      ⟨taken ++ atDepth depth level, [], last, queue ++ atDepth (depth + 1) next, after⟩ := by
  induction level generalizing waves taken fromStaged queue next before with
  | nil =>
    obtain ⟨rfl, rfl⟩ := Staging.runs_pure.mp h
    exact ⟨fromStaged, by simp [atDepth, Relation.ReflTransGen.refl]⟩
  | cons wave level ih =>
    simp only [deleteDepth, Staging.runs_bind, Staging.runs_get, Staging.runs_pure, and_assoc, exists_and_left,
      exists_eq_left] at h
    obtain ⟨spread, middle, hspread, more, _, hmore, rfl, rfl⟩ := h
    subst hwaves
    have hfirst : Turns database limit _ _ :=
      turns_of_spreadDelete (map_append_atDepth_cons taken queue depth wave level) hspread
    rw [map_append_atDepth_cons, map_append_atDepth _ _ (depth + 1), List.append_assoc (atDepth depth level)] at hmore
    obtain ⟨last, hrest⟩ := ih rfl hmore
    refine ⟨last, .head (.take hdepth) (.trans hfirst ?_)⟩
    simpa [atDepth] using hrest

theorem stopsAfter_of_refused_deleteDepth (hdepth : (depth : Int) ≤ limit)
    (hwaves : waves = (taken ++ (atDepth depth level ++ queue)).map (·.1))
    (h : Staging.Refused (deleteDepth database level waves) before error) :
    StopsAfter database limit ⟨taken, [], fromStaged, atDepth depth level ++ queue, before⟩ error := by
  induction level generalizing waves taken fromStaged queue before with
  | nil => exact absurd h Staging.refused_pure
  | cons wave level ih =>
    simp only [deleteDepth, Staging.refused_bind, Staging.refused_get, Staging.runs_get,
      Staging.refused_pure, and_false, exists_false, or_false, false_or, and_assoc, exists_and_left,
      exists_eq_left] at h
    subst hwaves
    refine StopsAfter.of_turns (.single (.take hdepth)) ?_
    obtain hspread | ⟨spread, middle, hspread, hmore⟩ := h
    · exact stopsAfter_of_refused_spreadDelete (by simp [atDepth]) hspread
    · have hfirst : Turns database limit _ _ :=
        turns_of_spreadDelete (map_append_atDepth_cons taken queue depth wave level) hspread
      rw [map_append_atDepth_cons, map_append_atDepth _ _ (depth + 1), List.append_assoc (atDepth depth level)] at hmore
      refine StopsAfter.of_turns hfirst ?_
      rw [List.append_assoc (atDepth depth level)]
      exact ih rfl hmore

/-- One depth with nothing behind it in the queue. -/
theorem turns_of_lastDepth (hdepth : (depth : Int) ≤ limit) (hwaves : waves = (taken ++ atDepth depth level).map (·.1))
    (h : Staging.Runs (deleteDepth database level waves) before next after) (fromStaged : Bool) :
    ∃ last, Turns database limit ⟨taken, [], fromStaged, atDepth depth level, before⟩
      ⟨taken ++ atDepth depth level, [], last, atDepth (depth + 1) next, after⟩ ∧
        waves ++ next = (taken ++ atDepth depth level ++ atDepth (depth + 1) next).map (·.1) := by
  obtain ⟨last, hturns⟩ : ∃ last, Turns database limit ⟨taken, [], fromStaged, atDepth depth level ++ [], before⟩
      ⟨taken ++ atDepth depth level, [], last, [] ++ atDepth (depth + 1) next, after⟩ :=
    turns_of_deleteDepth hdepth (by rwa [List.append_nil]) h
  rw [List.append_nil, List.nil_append] at hturns
  exact ⟨last, hturns, by simp [hwaves]⟩

theorem turns_of_deleteWaves (hdepths : depths = (limit + 1 - depth).toNat)
    (hwaves : waves = (taken ++ atDepth depth level).map (·.1))
    (h : Staging.Runs (deleteWaves database limit depths level waves) before next after) :
    ∃ last, Turns database limit ⟨taken, [], fromStaged, atDepth depth level, before⟩ last ∧
      last.pending = [] ∧ last.queue = [] ∧ last.waves = next ∧ last.staged = after := by
  induction depths generalizing level waves taken fromStaged depth before with
  | zero =>
    cases level with
    | nil =>
      obtain ⟨rfl, rfl⟩ := Staging.runs_pure.mp h
      exact ⟨_, .refl, rfl, rfl, hwaves.symm, rfl⟩
    | cons wave level => exact absurd h Staging.runs_throw
  | succ depths ih =>
    cases level with
    | nil =>
      obtain ⟨rfl, rfl⟩ := Staging.runs_pure.mp h
      exact ⟨_, .refl, rfl, rfl, hwaves.symm, rfl⟩
    | cons wave level =>
      simp only [deleteWaves, Staging.runs_bind] at h
      obtain ⟨found, middle, hfound, hmore⟩ := h
      have hdepth : (depth : Int) ≤ limit := by omega
      obtain ⟨flag, hfirst, hnext⟩ := turns_of_lastDepth hdepth hwaves hfound fromStaged
      have hdepths' : depths = (limit + 1 - ((depth + 1 : Nat) : Int)).toNat := by omega
      obtain ⟨last, hrest, hlast⟩ := ih hdepths' hnext hmore
      exact ⟨last, hfirst.trans hrest, hlast⟩

theorem stopsAfter_of_refused_deleteWaves (hdepths : depths = (limit + 1 - depth).toNat)
    (hwaves : waves = (taken ++ atDepth depth level).map (·.1))
    (h : Staging.Refused (deleteWaves database limit depths level waves) before error) :
    StopsAfter database limit ⟨taken, [], fromStaged, atDepth depth level, before⟩ error := by
  induction depths generalizing level waves taken fromStaged depth before with
  | zero =>
    cases level with
    | nil => exact absurd h Staging.refused_pure
    | cons wave level =>
      rw [← Staging.refused_throw.mp h]
      exact ⟨_, .refl, .depth (by omega)⟩
  | succ depths ih =>
    cases level with
    | nil => exact absurd h Staging.refused_pure
    | cons wave level =>
      have hdepth : (depth : Int) ≤ limit := by omega
      simp only [deleteWaves, Staging.refused_bind] at h
      obtain hfound | ⟨found, middle, hfound, hmore⟩ := h
      · have hstops : StopsAfter database limit
            ⟨taken, [], fromStaged, atDepth depth (wave :: level) ++ [], before⟩ error :=
          stopsAfter_of_refused_deleteDepth hdepth (by rwa [List.append_nil]) hfound
        rwa [List.append_nil] at hstops
      · obtain ⟨flag, hfirst, hnext⟩ := turns_of_lastDepth hdepth hwaves hfound fromStaged
        have hdepths' : depths = (limit + 1 - ((depth + 1 : Nat) : Int)).toNat := by omega
        exact StopsAfter.of_turns hfirst (ih hdepths' hnext hmore)

end

/-- A DELETE from given rows is the loop from the wave of these rows on: it succeeds where the loop ends with an
empty queue and is refused where the loop stops. Wherever the loop stands, no row is in two waves, no wave after
the first is empty, and the waves that it has taken or will take are at most one more than the rows. -/
theorem delete_turns (database : Database) (limit : Int) (table : Text) (positions : List Nat) :
    (∀ state, Turns database limit (.start table positions) state →
      state.waves.Pairwise Wave.Apart ∧ (∀ wave ∈ state.waves.tail, wave.positions ≠ []) ∧
        state.taken.length + state.queue.length ≤ 1 + database.rowCount) ∧
    (∀ count after, Staging.Runs (delete database limit table positions) .empty count after →
      ∃ last, Turns database limit (.start table positions) last ∧ last.pending = [] ∧ last.queue = [] ∧
        CascadesTo database limit ⟨table, positions⟩ last.progress) ∧
    ∀ error, Staging.Refused (delete database limit table positions) .empty error →
      StopsAfter database limit (.start table positions) error := by
  have hdepths : depthsWithin limit = (limit + 1 - (0 : Nat)).toNat := by simp [depthsWithin]
  have hwaves : [⟨table, positions⟩] = List.map (·.1) ([] ++ atDepth 0 [⟨table, positions⟩]) := rfl
  refine ⟨fun state hstate => ?_, fun count after h => ?_, fun error h => ?_⟩
  · have hspread := Turns.spread hstate (spread_start table positions)
    refine ⟨hspread.apart, fun wave hwave => (hspread.real wave hwave).ne_nil, ?_⟩
    simpa [Worklist.progress, Worklist.waves] using hspread.length_waves
  · obtain ⟨-, last, hcascades, -⟩ := trace_of_delete h
    obtain ⟨state, hturns, hpending, hqueue, hstate, hstaged⟩ := turns_of_deleteWaves hdepths hwaves hcascades
    refine ⟨state, hturns, hpending, hqueue, ?_⟩
    rwa [Worklist.progress, hstate, hstaged]
  · simp only [delete, Staging.refused_bind, not_refused_removals, Staging.refused_pure, and_false,
      exists_false, or_false] at h
    exact stopsAfter_of_refused_deleteWaves hdepths hwaves h

def ring : Database :=
  let schema : TableSchema := ⟨"node", [⟨"id", .int, true, true, true⟩, ⟨"next", .int, false, false, false⟩], ["id"], [],
    [⟨["next"], "node", ["id"], .cascade, .restrict, none⟩], .column, false⟩
  let row (id next : Int) : Row := .ofList [("id", .int id), ("next", .int next)]
  ⟨"node", .ofList [("node", schema)], .ofList [("node", [row 1 2, row 2 3, row 3 1])]⟩

theorem delete_turns_ring : ∃ last, Turns ring 64 (.start "node" [0]) last ∧ last.queue = [] ∧
    last.waves = [⟨"node", [0]⟩, ⟨"node", [2]⟩, ⟨"node", [1]⟩] ∧
    last.taken.length + last.queue.length ≤ 1 + ring.rowCount := by
  have hok : (ring.publish (delete ring 64 "node" [0])).isOk = true := by decide +kernel
  obtain ⟨⟨count, next⟩, h⟩ := Check.exists_of_isOk hok
  obtain ⟨after, hruns, -⟩ := Database.publish_eq_ok.mp h
  obtain ⟨hstates, hends, -⟩ := delete_turns ring 64 "node" [0]
  obtain ⟨last, hturns, -, hqueue, hcascades⟩ := hends count after hruns
  have hwaves : Staging.Runs (deleteWaves ring 64 (depthsWithin 64) [⟨"node", [0]⟩] [⟨"node", [0]⟩]) .empty
      [⟨"node", [0]⟩, ⟨"node", [2]⟩, ⟨"node", [1]⟩] .empty := by
    rfl
  obtain ⟨hsame, -⟩ := Prod.mk.inj (hcascades.symm.trans hwaves)
  exact ⟨last, hturns, hqueue, Except.ok.inj hsame, (hstates last hturns).2.2⟩

end Integrity

end SnapshotSql
