/-
# Analysis.BestLevel — the level that is recorded for an expression

The level-analysis script records a best level for each expression of a statement, whatever its
operators. A run of the statement that updates sets it for the `j`-th expression of its report line, if
its line of jit.csv has that expression in that operator at all; the level is then the `j`-th one of the
line. What the last of these runs sets stays.

`Run.levels` puts the two lines of a run side by side. **`bestLevel_recorded_iff`** says on the times,
the lists and the order of the runs when the levels of the fastest run of a statement are recorded.
-/
import Hex.Analysis.LevelRows

namespace Hex.Analysis.LevelScript

open Kernel.Report
open Theory.CText Theory.FallibleLoop Theory.WriteLog

section Levels

variable {F : Type} [DecidableEq F] [Zero F]

local instance lawfulKey : LawfulBEq (Int × OpKey F) := inferInstance

/-- The level that the `j`-th expression of a report sets, if it sets one. -/
def Run.levelWrites (run : Run F) : List (Int × Option Int) :=
  run.report.zipIdx.map fun entry =>
    (entry.1.exprId, if (entry.1.exprId, entry.1.op) ∈ run.currentExpr then run.currentLevel[entry.2]? else none)

def Edit.SetsLevel (e : Edit F) (write : Int × Option Int) : Prop :=
  e.exprId = write.1 ∧ ∀ v, (e.change v).bestLevel = write.2.getD v.bestLevel

lemma changeOf_bestLevel {run : Run F} {j : Nat} {e : ReportExpr F} {change : ExprVector F → ExprVector F}
    (made : changeOf run j e = some change) (v : ExprVector F) :
    (change v).bestLevel =
      (if (e.exprId, e.op) ∈ run.currentExpr then run.currentLevel[j]? else none).getD v.bestLevel := by
  rw [changeOf] at made
  split at made
  · rename_i family level _ found
    cases made
    rw [levelAt] at found
    show level.getD v.bestLevel = _
    split at found
    · rename_i inside
      obtain ⟨l, at', rfl⟩ := Option.map_eq_some_iff.mp found
      rw [if_pos inside, at']
    · rename_i outside
      cases found
      rw [if_neg outside]
  · cases made

lemma edits_setsLevel {run : Run F} {es : List (Edit F)} (read : edits run = some es) :
    List.Forall₂ Edit.SetsLevel es run.levelWrites :=
  forall₂_edits (fun made => ⟨rfl, changeOf_bestLevel made⟩) read

/-- The levels that are set, without the entries that leave them. -/
def levelLog (writes : List (Int × Option Int)) : List (Int × Int) :=
  writes.filterMap fun write => write.2.map (write.1, ·)

/-- The two lines of a run side by side: an expression of the report and the level in the same place of
jit.csv, if jit.csv has that expression in that operator. -/
def Run.levels (run : Run F) : List (Int × Int) :=
  (run.report.zip run.exprs).filterMap fun entry =>
    if (entry.1.exprId, entry.1.op) ∈ run.currentExpr then some (entry.1.exprId, entry.2.level) else none

lemma filterMap_zipIdx {α β γ : Type} (f : α → β → Option γ) (xs : List α) (ys : List β) (n : Nat) :
    (xs.zipIdx n).filterMap (fun entry => ys[entry.2]?.bind (f entry.1)) =
      (xs.zip (ys.drop n)).filterMap fun entry => f entry.1 entry.2 := by
  induction xs generalizing n with
  | nil => rfl
  | cons x xs ih =>
    rw [List.zipIdx_cons, List.filterMap_cons, ih]
    by_cases inside : n < ys.length
    · rw [List.drop_eq_getElem_cons inside, List.zip_cons_cons, List.filterMap_cons, List.getElem?_eq_getElem inside,
        Option.bind_some]
    · rw [List.getElem?_eq_none (Nat.le_of_not_lt inside), List.drop_eq_nil_of_le (Nat.le_of_not_lt inside),
        List.drop_eq_nil_of_le (by omega)]
      simp

omit [Zero F] in
lemma levelLog_levelWrites (run : Run F) : levelLog run.levelWrites = run.levels := by
  have zipped := filterMap_zipIdx (fun (e : ReportExpr F) (x : JitExpr F) =>
    if (e.exprId, e.op) ∈ run.currentExpr then some (e.exprId, x.level) else none) run.report run.exprs 0
  rw [List.drop_zero] at zipped
  rw [Run.levels, ← zipped, levelLog, Run.levelWrites, List.filterMap_map]
  refine List.filterMap_congr fun entry _ => ?_
  simp only [Function.comp_apply, Run.currentLevel, List.getElem?_map]
  split_ifs <;> cases run.exprs[entry.2]? <;> rfl

def bestLevelOf (exprs : Dict Int (ExprVector F)) (exprId : Int) : Int :=
  ((exprs.get? exprId).map ExprVector.bestLevel).getD 0

omit [DecidableEq F] in
lemma bestLevelOf_editExprs {es : List (Edit F)} {writes : List (Int × Option Int)}
    (sets : List.Forall₂ Edit.SetsLevel es writes) (exprId : Int) (exprs : Dict Int (ExprVector F)) :
    bestLevelOf (editExprs exprs es) exprId = (latest exprId (levelLog writes)).getD (bestLevelOf exprs exprId) := by
  induction sets generalizing exprs with
  | nil => rfl
  | @cons e write es writes here _ ih =>
    obtain ⟨id, level⟩ := write
    obtain ⟨rfl, changed⟩ := here
    have updated : bestLevelOf (exprs.update e.exprId .initial e.change) exprId =
        if exprId = e.exprId then level.getD (bestLevelOf exprs exprId) else bestLevelOf exprs exprId := by
      unfold bestLevelOf
      rw [Dict.get?_update]
      by_cases same : exprId = e.exprId
      · subst same
        rw [if_pos rfl, if_pos rfl, Option.map_some, Option.getD_some, changed]
        cases exprs.get? e.exprId <;> rfl
      · rw [if_neg same, if_neg same]
    show bestLevelOf (editExprs (exprs.update e.exprId .initial e.change) es) exprId = _
    rw [ih, updated]
    cases level with
    | none =>
      rw [Option.getD_none, ite_self]
      rfl
    | some level =>
      have log : levelLog ((e.exprId, some level) :: writes) = (e.exprId, level) :: levelLog writes := rfl
      rw [log, latest, Option.getD_or]
      by_cases same : e.exprId = exprId
      · simp [same]
      · simp [same, Ne.symm same]

/-- The levels in the lines of the runs of a statement, one behind the other. -/
def levelsOf (pair : Text × Text) (runs : List (Run F)) : List (Int × Int) := (runsOf pair runs).flatMap Run.levels

variable [LT F] [DecidableLT F]

/-- The vectors of a statement: each expression has the operator that was reported last, and the
level that was set last. -/
lemma get?_vectorsOf {runs : List (Run F)} {vectors : Vectors F} (left : levelVectors runs = some vectors)
    (pair : Text × Text) (exprId : Int) :
    ((vectorsOf vectors pair).get? exprId).map (fun v => (v.op, v.bestLevel)) =
      (latest exprId (reported pair (updating runs))).map fun op =>
        (op, (latest exprId (levelsOf pair (updating runs))).getD 0) := by
  have log : levelsOf pair (updating runs) = levelLog ((runsOf pair (updating runs)).flatMap Run.levelWrites) := by
    rw [levelsOf, levelLog, List.filterMap_flatMap, ← funext levelLog_levelWrites]
    rfl
  have level : bestLevelOf (vectorsOf vectors pair) exprId = (latest exprId (levelsOf pair (updating runs))).getD 0 := by
    rw [vectorsOf_levelVectors left, log]
    exact bestLevelOf_editExprs (forall₂_editsOf edits_setsLevel left pair) exprId .empty
  have op : ((vectorsOf vectors pair).get? exprId).map ExprVector.op = latest exprId (reported pair (updating runs)) := by
    rw [Dict.get?, ← latest_map, ops_vectorsOf left, ← Dict.get?, Dict.get?_ofLog]
  rw [← level, ← op, bestLevelOf]
  cases (vectorsOf vectors pair).get? exprId <;> rfl

variable [Add F] [Mul F] [Div F] [NatCast F] [IntCast F]

/-- The level is recorded for an expression in an operator. -/
def Records (rows : List (Row F)) (pair : Text × Text) (x : JitExpr F) : Prop :=
  ∃ row ∈ rowsOf pair rows, row.slot = (x.exprId, x.op) ∧ row.vector.bestLevel = x.level

lemma records_iff {files : Files F} {runs : List (Run F)} {rows : List (Row F)}
    (written : levelRows files runs = some rows) (pair : Text × Text) (x : JitExpr F) :
    Records rows pair x ↔
      known files pair.1 x.exprId = true ∧ latest x.exprId (reported pair (updating runs)) = some x.op ∧
        (latest x.exprId (levelsOf pair (updating runs))).getD 0 = x.level := by
  obtain ⟨vectors, left⟩ := exists_levelVectors written
  have listed : Records rows pair x ↔ ∃ v,
      (x.exprId, v) ∈ (rowsOf pair rows).map (fun row => (row.exprId, row.vector)) ∧ v.op = x.op ∧ v.bestLevel = x.level := by
    simp only [Records, Row.slot, List.mem_map, Prod.mk.injEq]
    exact ⟨fun ⟨row, member, ⟨id, op⟩, level⟩ => ⟨_, ⟨row, member, id, rfl⟩, op, level⟩,
      fun ⟨_, ⟨row, member, id, rfl⟩, op, level⟩ => ⟨row, member, ⟨id, op⟩, level⟩⟩
  have vector := get?_vectorsOf left pair x.exprId
  simp only [listed, vectors_of_rows left written, List.mem_filter, Dict.mem_entries]
  generalize (vectorsOf vectors pair).get? x.exprId = found at vector ⊢
  generalize latest x.exprId (reported pair (updating runs)) = op at vector
  cases found <;> cases op <;> simp_all

end Levels

section Fastest

variable {F : Type} [LinearOrder F] [Zero F] [Add F] [Mul F] [Div F] [NatCast F] [IntCast F]

/-- No run of the statement took less time. -/
def Run.IsFastest (best : Run F) (runs : List (Run F)) : Prop :=
  best ∈ runs ∧ ∀ run ∈ runsOf best.pair runs, best.execTime ≤ run.execTime

/-- **Whether the best level is that of the fastest run.** For each expression in an operator, the
level that the fastest run of a statement has for it is recorded, exactly if the expression is known,
its last report among the leading runs of the statement has that operator, and the last level that
stands beside it in these runs is that level. -/
theorem bestLevel_recorded_iff (files : Files F) (runs : List (Run F)) (rows : List (Row F))
    (timed : ∀ run ∈ runs, 0 ≤ run.execTime) (written : levelRows files runs = some rows) :
    (∀ best : Run F, best.IsFastest runs → ∀ x ∈ best.exprs, Records rows best.pair x) ↔
      ∀ best : Run F, best.IsFastest runs → ∀ x ∈ best.exprs,
        known files best.currentDb x.exprId = true ∧ latest x.exprId (reported best.pair (leading runs)) = some x.op ∧
          (latest x.exprId (levelsOf best.pair (leading runs))).getD 0 = x.level := by
  rw [← updating_eq_leading timed]
  exact forall₂_congr fun best _ => forall₂_congr fun x _ => records_iff written best.pair x

end Fastest

/-- The run in between lets the slower run of the first statement update: its level 2 is recorded,
and the fastest run of the statement has level 1. -/
theorem slowBetween_bestLevel : (filterRun ['a'] 1 1 5).IsFastest slowBetween ∧
      (filterRun ['a'] 1 1 5).exprs = [⟨1, 1, scanRow.key⟩] ∧
      ∃ rows, levelRows twoExpressions slowBetween = some rows ∧
        (rowsOf (['d'], ['a']) rows).map (fun row => (row.slot, row.vector.bestLevel)) = [((1, scanRow.key), 2)] := by
  refine ⟨⟨List.mem_cons_self, ?_⟩, rfl, ?_⟩
  · simp [runsOf, slowBetween, filterRun]
  · have left : (levelRows twoExpressions slowBetween).map (fun rows =>
        (rowsOf (['d'], ['a']) rows).map fun row => (row.slot, row.vector.bestLevel)) =
          some [((1, scanRow.key), 2)] := by decide +kernel
    exact Option.map_eq_some_iff.mp left

/-- Where the second statement comes last, the levels of the fastest runs are recorded. -/
theorem slowBefore_bestLevel : ∃ rows, levelRows twoExpressions slowBefore = some rows ∧
      ∀ best : Run Int, best.IsFastest slowBefore → ∀ x ∈ best.exprs, Records rows best.pair x := by
  have isSome : (levelRows twoExpressions slowBefore).isSome = true := by decide +kernel
  obtain ⟨rows, written⟩ := Option.isSome_iff_exists.mp isSome
  have timed : ∀ run ∈ slowBefore, 0 ≤ run.execTime := by decide
  refine ⟨rows, written, (bestLevel_recorded_iff twoExpressions slowBefore rows timed written).mpr ?_⟩
  rw [← updating_eq_leading timed]
  rintro best ⟨member, fastest⟩ x listed
  simp only [slowBefore, List.mem_cons, List.not_mem_nil, or_false] at member
  obtain rfl | rfl | rfl := member
  · obtain rfl := List.mem_singleton.mp listed
    decide +kernel
  · -- the second run is not the fastest one
    refine absurd (fastest (filterRun ['a'] 1 1 5) (mem_runsOf.mpr ⟨List.mem_cons_self, ?_⟩)) (by decide)
    rw [pair_a, pair_a]
  · obtain rfl := List.mem_singleton.mp listed
    decide +kernel

end Hex.Analysis.LevelScript
