/-
# Analysis.LevelScript — the level-analysis script

`analyzeData_Opt+Expr(Level).py` goes through the collected runs of statements, and
keeps a running minimum of the execution times, `min_time`, for all statements
together; a list of expressions and operators it has not seen sets it back. Only a
run that updates the minimum is looked at further: each expression of its report
line is filled into `expr_vectors`, under its database, its statement and its number.
At the end the vectors are written as rows, in the order of the three dictionaries.

`Clock` is the running minimum, and `updating` lists the runs that update it. The
rest is a list of `Edit`s: the script fails just when an updating run cannot be read,
and otherwise makes their edits (`levelVectors_eq`).
-/
import Hex.Analysis.OperatorTable
import Hex.Kernel.OpNames
import Hex.Theory.PyText

namespace Hex.Analysis.LevelScript

open OperatorTable Kernel.OpNames Kernel.Report
open Theory.CText Theory.FallibleLoop Theory.PyText Theory.WriteLog

def normalised (sql : Text) : Text := strip (squeeze false sql)

/-! ## The collected runs -/

structure JitExpr (F : Type) where
  exprId : Int
  level : Int
  op : OpKey F
  deriving DecidableEq, Repr

/-- A run of a statement: its lines of jit.csv and report.csv, and its block of
operator.csv. -/
structure Run (F : Type) where
  exprs : List (JitExpr F)
  planTime : F
  execTime : F
  operators : List (OpRow F)
  sql : Text
  db : Text
  report : List (ReportExpr F)
  deriving DecidableEq, Repr

section Script

variable {F : Type}

def Run.currentSql (run : Run F) : Text := normalised run.sql

def Run.currentDb (run : Run F) : Text := strip run.db

def Run.pair (run : Run F) : Text × Text := (run.currentDb, run.currentSql)

def Run.currentExpr (run : Run F) : List (Int × OpKey F) :=
  run.exprs.map fun x => (x.exprId, x.op)

def Run.currentLevel (run : Run F) : List Int := run.exprs.map JitExpr.level

/-! ## The running minimum -/

variable [DecidableEq F] [Zero F] [LT F] [DecidableLT F]

/-- `sql_expr_level_list` and `min_time`. -/
structure Clock (F : Type) [DecidableEq F] where
  levels : Dict (List (Int × OpKey F)) (List Int)
  minTime : F

def Clock.start : Clock F := ⟨.empty, 0⟩

/-- The first half of the loop: the clock after a run, and `updateLevel`. -/
def Clock.next (c : Clock F) (run : Run F) : Clock F × Bool :=
  let known : Bool := run.currentExpr ∈ c.levels.keys
  let minTime := if known then c.minTime else 0
  let levels := if known then c.levels else c.levels.set run.currentExpr []
  if minTime = 0 ∨ run.execTime < minTime then
    (⟨levels.set run.currentExpr run.currentLevel, run.execTime⟩, true)
  else (⟨levels, minTime⟩, false)

def Clock.bound (c : Clock F) (run : Run F) : F :=
  if run.currentExpr ∈ c.levels.keys then c.minTime else 0

/-! ## The vectors -/

structure ExprVector (F : Type) where
  exprCount : Int
  op : OpKey F
  startupTime : F
  totalTime : F
  inputRows : Int
  outputRows : Int
  filteredRows : Int
  left : OpKey F
  leftRows : Int
  leftTime : F
  right : OpKey F
  rightRows : Int
  rightTime : F
  bestLevel : Int
  deriving DecidableEq, Repr

/-- What the innermost dictionary starts an entry from. -/
def ExprVector.initial : ExprVector F where
  exprCount := 0
  op := .invalid
  startupTime := 0
  totalTime := 0
  inputRows := 0
  outputRows := 0
  filteredRows := 0
  left := .invalid
  leftRows := 0
  leftTime := 0
  right := .invalid
  rightRows := 0
  rightTime := 0
  bestLevel := 0

abbrev Vectors (F : Type) := Dict Text (Dict Text (Dict Int (ExprVector F)))

/-- `expr_vectors[db][sql][exprId]` is changed. -/
def modifyVector (vectors : Vectors F) (db sql : Text) (exprId : Int)
    (change : ExprVector F → ExprVector F) : Vectors F :=
  vectors.update db .empty fun statements =>
    statements.update sql .empty fun exprs => exprs.update exprId .initial change

def inputRows (type : String) (family : Family F) : Int :=
  if "Join".toList <:+: type.toList ∨ "NestLoop".toList <:+: type.toList then
    max family.left.outputRows family.right.outputRows
  else if "Scan".toList <:+: type.toList then family.current.inputRows
  else family.current.inputRows + family.left.outputRows + family.right.outputRows

def filled (e : ReportExpr F) (family : Family F) (level : Option Int) (v : ExprVector F) :
    ExprVector F where
  exprCount := if e.count ≠ 0 then e.count else v.exprCount
  op := family.current.key
  startupTime := family.current.startupTime
  totalTime := family.current.totalTime
  inputRows := inputRows e.op.type family
  outputRows := family.current.outputRows
  filteredRows := family.current.filteredRows
  left := family.left.key
  leftRows := family.left.outputRows
  leftTime := family.left.totalTime
  right := family.right.key
  rightRows := family.right.outputRows
  rightTime := family.right.totalTime
  bestLevel := level.getD v.bestLevel

/-- The level for the `j`-th expression of the report: when the line of jit.csv has
the expression at all, the level is taken from its place `j`. -/
def levelAt (run : Run F) (j : Nat) (e : ReportExpr F) : Option (Option Int) :=
  if (e.exprId, e.op) ∈ run.currentExpr then run.currentLevel[j]?.map some else some none

/-- What the `j`-th expression of a report sets; `none` is a `KeyError` or an
`IndexError`. -/
def changeOf (run : Run F) (j : Nat) (e : ReportExpr F) :
    Option (ExprVector F → ExprVector F) :=
  match levelLookup (currentOpts run.operators) e, levelAt run j e with
  | some family, some level => some (filled e family level)
  | _, _ => none

/-- The second half of the loop, for a run that updates. -/
def describe (run : Run F) (vectors : Vectors F) : Option (Vectors F) :=
  run.report.zipIdx.foldlM (fun vectors entry =>
      (changeOf run entry.2 entry.1).map (modifyVector vectors run.currentDb run.currentSql entry.1.exprId))
    vectors

def step (state : Clock F × Vectors F) (run : Run F) : Option (Clock F × Vectors F) :=
  if (state.1.next run).2 then (describe run state.2).map fun vectors => ((state.1.next run).1, vectors)
  else some ((state.1.next run).1, state.2)

/-- `expr_vectors` after the loop. -/
def levelVectors (runs : List (Run F)) : Option (Vectors F) :=
  (runs.foldlM step (Clock.start, .empty)).map Prod.snd

/-! ## The rows -/

/-- A row of level_vectors.csv; `eeops` has a cell for each name of a step. -/
structure Row (F : Type) where
  db : Text
  sql : Text
  exprId : Int
  vector : ExprVector F
  eeops : List F
  deriving DecidableEq, Repr

/-- What the script has read before: the steps of the expressions of each database,
and the factors of the steps. -/
structure Files (F : Type) where
  exprEeops : Dict String (Dict Int (List Text))
  eeopFactors : Dict Text F

variable [Add F] [Mul F] [Div F] [NatCast F] [IntCast F]

def avgFactor (factors : Dict Text F) : F :=
  if 0 < factors.entries.length then
    (factors.entries.map Prod.snd).foldl (· + ·) 0 / (factors.entries.length : F)
  else 0

def eeopCell (files : Files F) (steps : List Text) (exprCount : Int) (step : Text) : F :=
  if step = "EEOP_DONE".toList ∨ step ∉ steps then 0
  else (steps.count step : F) * (exprCount : F) * (files.eeopFactors.get? step).getD (avgFactor files.eeopFactors)

/-- The entries of `expr_vectors`, in the order of the three loops. -/
def flat (vectors : Vectors F) : List (Text × Text × Int × ExprVector F) :=
  vectors.entries.flatMap fun db =>
    db.2.entries.flatMap fun sql => sql.2.entries.map fun expr => (db.1, sql.1, expr)

/-- The row of an entry: `none` is the `KeyError` of a database without expressions,
and `some none` an expression that is not in its dictionary. -/
def rowOf (files : Files F) (entry : Text × Text × Int × ExprVector F) : Option (Option (Row F)) :=
  (files.exprEeops.get? (String.ofList entry.1)).map fun exprs =>
    (exprs.get? entry.2.2.1).map fun steps =>
      { db := entry.1
        sql := entry.2.1
        exprId := entry.2.2.1
        vector := entry.2.2.2
        eeops := opNames.map fun name => eeopCell files steps entry.2.2.2.exprCount name.toList }

/-- What the script writes; `none` is an exception. -/
def levelRows (files : Files F) (runs : List (Run F)) : Option (List (Row F)) :=
  match levelVectors runs with
  | none => none
  | some vectors => ((flat vectors).mapM (rowOf files)).map List.reduceOption

end Script

/-! ## What the loop does -/

section Updating

variable {F : Type} [DecidableEq F] [Zero F] [LT F] [DecidableLT F]

/-- The runs that update, with the clock at `c` before the first. -/
def updatingFrom (c : Clock F) : List (Run F) → List (Run F)
  | [] => []
  | run :: rest =>
    if (c.next run).2 then run :: updatingFrom (c.next run).1 rest
    else updatingFrom (c.next run).1 rest

def updating (runs : List (Run F)) : List (Run F) := updatingFrom Clock.start runs

def Clock.after (c : Clock F) (runs : List (Run F)) : Clock F :=
  runs.foldl (fun c run => (c.next run).1) c

lemma updatingFrom_append (c : Clock F) (a b : List (Run F)) :
    updatingFrom c (a ++ b) = updatingFrom c a ++ updatingFrom (c.after a) b := by
  induction a generalizing c with
  | nil => rfl
  | cons run a ih =>
    simp only [List.cons_append, updatingFrom, ih, Clock.after, List.foldl_cons]
    split <;> rfl

lemma updatingFrom_sublist (c : Clock F) (runs : List (Run F)) : (updatingFrom c runs).Sublist runs := by
  induction runs generalizing c with
  | nil => exact List.Sublist.refl []
  | cons run runs ih =>
    rw [updatingFrom]
    split
    · exact (ih _).cons_cons run
    · exact (ih _).cons run

lemma foldlM_step (c : Clock F) (vectors : Vectors F) (runs : List (Run F)) :
    (runs.foldlM step (c, vectors)).map Prod.snd =
      (updatingFrom c runs).foldlM (fun vectors run => describe run vectors) vectors := by
  induction runs generalizing c vectors with
  | nil => rfl
  | cons run runs ih =>
    rw [List.foldlM_cons, updatingFrom, step]
    split
    · rw [List.foldlM_cons]
      cases describe run vectors with
      | none => rfl
      | some vectors => exact ih _ _
    · exact ih _ _

end Updating

section Edits

variable {F : Type} [Zero F]

/-- A change of one entry of `expr_vectors`. -/
structure Edit (F : Type) where
  db : Text
  sql : Text
  exprId : Int
  change : ExprVector F → ExprVector F

def Edit.pair (e : Edit F) : Text × Text := (e.db, e.sql)

def makeEdits (vectors : Vectors F) (es : List (Edit F)) : Vectors F :=
  es.foldl (fun vectors e => modifyVector vectors e.db e.sql e.exprId e.change) vectors

def edits [DecidableEq F] (run : Run F) : Option (List (Edit F)) :=
  run.report.zipIdx.mapM fun entry =>
    (changeOf run entry.2 entry.1).map fun change =>
      ⟨run.currentDb, run.currentSql, entry.1.exprId, change⟩

lemma describe_eq [DecidableEq F] (run : Run F) (vectors : Vectors F) :
    describe run vectors = (edits run).map (makeEdits vectors) := by
  rw [describe, edits]
  unfold makeEdits
  rw [← foldlM_map]
  simp only [Option.map_map]
  rfl

/-- **What the script leaves**: it fails when a run that updates cannot be read, and
otherwise makes the edits of these runs. -/
theorem levelVectors_eq [DecidableEq F] [LT F] [DecidableLT F] (runs : List (Run F)) :
    levelVectors runs = ((updating runs).mapM edits).map fun es => makeEdits .empty es.flatten := by
  rw [levelVectors, foldlM_step, ← updating]
  simp only [describe_eq]
  rw [foldlM_map edits makeEdits]
  congr
  funext es
  exact List.foldl_flatten.symm

/-! ## The vectors of a statement -/

/-- `expr_vectors[db][sql]`. -/
def vectorsOf (vectors : Vectors F) (pair : Text × Text) : Dict Int (ExprVector F) :=
  (((vectors.get? pair.1).getD .empty).get? pair.2).getD .empty

lemma vectorsOf_modify (vectors : Vectors F) (e : Edit F) (pair : Text × Text) :
    vectorsOf (modifyVector vectors e.db e.sql e.exprId e.change) pair =
      if e.pair = pair then (vectorsOf vectors pair).update e.exprId .initial e.change
      else vectorsOf vectors pair := by
  obtain ⟨db, sql⟩ := pair
  simp only [vectorsOf, modifyVector, Dict.get?_update, Edit.pair, Prod.mk.injEq]
  by_cases here : db = e.db
  · subst here
    by_cases there : sql = e.sql
    · subst there
      simp [Dict.get?_update]
    · simp [Dict.get?_update, there, Ne.symm there]
  · simp [here, Ne.symm here]

def editExprs (exprs : Dict Int (ExprVector F)) (es : List (Edit F)) : Dict Int (ExprVector F) :=
  es.foldl (fun exprs e => exprs.update e.exprId .initial e.change) exprs

/-- **The vectors of a statement come from its own edits.** -/
theorem vectorsOf_makeEdits (vectors : Vectors F) (es : List (Edit F)) (pair : Text × Text) :
    vectorsOf (makeEdits vectors es) pair = editExprs (vectorsOf vectors pair) (es.filter fun e => e.pair = pair) := by
  induction es generalizing vectors with
  | nil => rfl
  | cons e es ih =>
    show vectorsOf (makeEdits (modifyVector vectors e.db e.sql e.exprId e.change) es) pair = _
    rw [ih, vectorsOf_modify]
    by_cases here : e.pair = pair
    · simp [here, editExprs]
    · simp [here]

omit [Zero F] in
/-- The entries of a statement, in the order of its expressions. -/
lemma flat_filter (vectors : Vectors F) (pair : Text × Text) :
    (flat vectors).filter (fun entry => (entry.1, entry.2.1) = pair) =
      (vectorsOf vectors pair).entries.map fun expr => (pair.1, pair.2, expr) := by
  obtain ⟨db, sql⟩ := pair
  have inner : ∀ (db' : Text) (entry : Text × Dict Int (ExprVector F)),
      (entry.2.entries.map fun expr => (db', entry.1, expr)).filter (fun entry => (entry.1, entry.2.1) = (db, sql)) =
      if db' = db ∧ entry.1 = sql then entry.2.entries.map fun expr => (db, sql, expr) else [] := by
    intro db' entry
    split_ifs with here
    · obtain ⟨rfl, rfl⟩ := here
      simp only [List.filter_eq_self, List.mem_map]
      rintro _ ⟨expr, -, rfl⟩
      simp
    · simp only [List.filter_eq_nil_iff, List.mem_map]
      rintro _ ⟨expr, -, rfl⟩
      simpa using here
  rw [flat, List.filter_flatMap]
  simp only [List.filter_flatMap, inner]
  rw [Dict.flatMap_entries vectors db]
  · cases first : vectors.get? db with
    | none => simp [vectorsOf, first]
    | some statements =>
      rw [Option.map_some, Option.getD_some, Dict.flatMap_entries statements sql]
      · cases second : statements.get? sql <;> simp [vectorsOf, first, second]
      · intro entry _ differ
        simp [differ]
  · intro entry _ differ
    simp [differ]

omit [Zero F] in
lemma mem_flat {vectors : Vectors F} {db sql : Text} {expr : Int × ExprVector F} :
    (db, sql, expr) ∈ flat vectors ↔ (vectorsOf vectors (db, sql)).get? expr.1 = some expr.2 := by
  have entries : (db, sql, expr) ∈ (flat vectors).filter (fun entry => (entry.1, entry.2.1) = (db, sql)) ↔
      (db, sql, expr) ∈ flat vectors := by simp
  rw [← entries, flat_filter, ← Dict.mem_entries]
  simp

end Edits

end Hex.Analysis.LevelScript
