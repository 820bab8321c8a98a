/-
# Analysis.CountScript — the count-analysis script

`analyzeData_Opt+Expr(Count).py` goes through the collected runs of statements and counts them in
`line_num`, from 1 on wherever the statement is another than before. Of the first run of a
statement it writes a feature row for each expression that is in the dictionary of the database
and was evaluated at least once.

`LineCounter` is the counting, which the time-analysis script does in the same way. The database
is not looked at there: **`countRows_blocks_iff`** says when the runs that are written are the first
runs of the blocks of one database and one statement.
-/
import Hex.Analysis.LevelRows
import Hex.Theory.Blocks

namespace Hex.Analysis.CountScript

open LevelScript OperatorTable Kernel.OpNames Kernel.Report
open Theory.Blocks Theory.CText Theory.FallibleLoop Theory.WriteLog

/-! ## Lines -/

/-- `line_num` and `last_sql`. -/
structure LineCounter where
  lineNum : Nat
  lastSql : Text
  deriving DecidableEq, Repr

def LineCounter.start : LineCounter := ⟨0, []⟩

def LineCounter.next (c : LineCounter) (sql : Text) : LineCounter :=
  if c.lastSql ≠ sql then ⟨1, sql⟩ else ⟨c.lineNum + 1, c.lastSql⟩

section Counter

variable {F : Type}

/-- The two runs are of one statement, or of one statement in one database. -/
def sameSql (a b : Run F) : Bool := a.currentSql = b.currentSql

def samePair (a b : Run F) : Bool := a.pair = b.pair

lemma sameSql_of_samePair (a b : Run F) (same : samePair a b = true) : sameSql a b = true :=
  decide_eq_true (congrArg Prod.snd (of_decide_eq_true same))

lemma samePair_eq_false {a b : Run F} (same : sameSql a b = true) :
    samePair a b = false ↔ a.currentDb ≠ b.currentDb := by
  have sql : a.currentSql = b.currentSql := of_decide_eq_true same
  rw [samePair, decide_eq_false_iff_not, Run.pair, Run.pair, sql, Prod.mk.injEq, and_iff_left rfl]

def LineCounter.Behind (c : LineCounter) : Option (Run F) → Prop
  | none => c = .start
  | some run => 1 ≤ c.lineNum ∧ c.lastSql = run.currentSql

lemma LineCounter.next_behind (c : LineCounter) (run : Run F) : (c.next run.currentSql).Behind (some run) := by
  unfold LineCounter.next
  split
  · exact ⟨Nat.le_refl 1, rfl⟩
  · rename_i same
    exact ⟨Nat.le_add_left 1 _, not_not.mp same⟩

lemma LineCounter.Behind.first {c : LineCounter} {prev : Option (Run F)} (behind : c.Behind prev) (run : Run F) :
    (c.next run.currentSql).lineNum = 1 ↔ prev.any (sameSql · run) = false := by
  unfold LineCounter.next sameSql
  cases prev with
  | none =>
    obtain rfl : c = .start := behind
    split <;> simp [LineCounter.start]
  | some before =>
    obtain ⟨counted, last⟩ := behind
    by_cases same : before.currentSql = run.currentSql
    · rw [if_neg (not_not.mpr (last.trans same))]
      have more : ¬ c.lineNum = 0 := by omega
      simp [same, more]
    · rw [if_pos (last ▸ same)]
      simp [same]

end Counter

/-! ## The script -/

/-- A row of vectors.csv; `eeops` has a cell for each name of a step. -/
structure FeatureRow (F : Type) where
  sql : Text
  db : Text
  exprId : Int
  exprCount : Int
  mode : Nat
  optId : Int
  optType : String
  startupCost : F
  totalCost : F
  startupTime : F
  totalTime : F
  inputRows : Int
  outputRows : Int
  filteredRows : Int
  left : OpKey F
  leftRows : Int
  leftTime : F
  right : OpKey F
  rightRows : Int
  rightTime : F
  eeops : List Nat
  deriving DecidableEq, Repr

section Script

variable {F : Type} [DecidableEq F] [Zero F] [LT F] [DecidableLT F] [LE F] [DecidableLE F] [Max F] [Sub F] [Mul F]
  [Div F] [IntCast F] [OfScientific F]

/-- `input_rows`; of a scan these are the rows that it returned and those that it filtered out. -/
def countInputRows (type : String) (family : Family F) : Int :=
  if "Join".toList <:+: type.toList ∨ "NestLoop".toList <:+: type.toList then
    max family.left.outputRows family.right.outputRows
  else if "Scan".toList <:+: type.toList then family.current.outputRows + family.current.filteredRows
  else family.current.inputRows + family.left.outputRows + family.right.outputRows

/-- The expression was evaluated about once, or about twice, for a row. -/
def aboutOnce (count rows : Int) : Prop := (0.9 : F) < (count : F) / (rows : F) ∧ (count : F) / (rows : F) < 1.1

def aboutTwice (count rows : Int) : Prop := (1.9 : F) ≤ (count : F) / (rows : F) ∧ (count : F) / (rows : F) ≤ 2.1

instance (count rows : Int) : Decidable (aboutOnce (F := F) count rows) := inferInstanceAs (Decidable (_ ∧ _))

instance (count rows : Int) : Decidable (aboutTwice (F := F) count rows) := inferInstanceAs (Decidable (_ ∧ _))

variable (F) in
/-- How the count goes with the rows that come in, and otherwise with those that go out. -/
def countMode (count inputRows outputRows : Int) : Nat :=
  let mode :=
    if inputRows = 0 then 0
    else if aboutOnce (F := F) count inputRows then 2 else if aboutTwice (F := F) count inputRows then 3 else 0
  if outputRows ≠ 0 ∧ mode = 0 then
    if aboutOnce (F := F) count outputRows then 0 else if aboutTwice (F := F) count outputRows then 1 else mode
  else mode

/-- The row of an expression with its steps; costs and times are without those of the children. -/
def featureRow (run : Run F) (e : ReportExpr F) (steps : List Text) (family : Family F) : FeatureRow F where
  sql := run.currentSql
  db := run.currentDb
  exprId := e.exprId
  exprCount := e.count
  mode := countMode F e.count (countInputRows e.op.type family) family.current.outputRows
  optId := family.current.key.id
  optType := family.current.key.type
  startupCost := family.current.key.startupCost
  totalCost := max (family.current.key.totalCost - max family.left.key.totalCost family.right.key.totalCost) 0
  startupTime := family.current.startupTime * (1000 : Int)
  totalTime := max (family.current.totalTime * (1000 : Int) -
    max (family.left.totalTime * (1000 : Int)) (family.right.totalTime * (1000 : Int))) 0
  inputRows := countInputRows e.op.type family
  outputRows := family.current.outputRows
  filteredRows := family.current.filteredRows
  left := family.left.key
  leftRows := family.left.outputRows
  leftTime := family.left.totalTime * (1000 : Int)
  right := family.right.key
  rightRows := family.right.outputRows
  rightTime := family.right.totalTime * (1000 : Int)
  eeops := opNames.map fun name => if name = "EEOP_DONE" then 0 else steps.count name.toList

/-- What is written for one expression: `none` is a `KeyError`, and `some none` an expression that
is not in the dictionary or was not evaluated. -/
def recordRow (files : Files F) (run : Run F) (e : ReportExpr F) : Option (Option (FeatureRow F)) :=
  match files.exprEeops.get? (String.ofList run.currentDb) with
  | none => none
  | some exprs =>
    match exprs.get? e.exprId with
    | none => some none
    | some steps =>
      if e.count = 0 then some none
      else (countLookup (currentOpts run.operators) e).map fun family => some (featureRow run e steps family)

def features (files : Files F) (run : Run F) : Option (List (FeatureRow F)) :=
  (run.report.mapM (recordRow files run)).map List.reduceOption

def countLoop (files : Files F) : LineCounter → List (Run F) → Option (List (FeatureRow F))
  | _, [] => some []
  | c, run :: rest =>
    let c := c.next run.currentSql
    match if c.lineNum = 1 then features files run else some [] with
    | none => none
    | some rows => (countLoop files c rest).map (rows ++ ·)

/-- What the script writes; `none` is an exception. -/
def countRows (files : Files F) (runs : List (Run F)) : Option (List (FeatureRow F)) := countLoop files .start runs

/-! ## What it writes -/

/-- The expressions of a run that are known and were evaluated. -/
def wanted (files : Files F) (run : Run F) : List (Run F × ReportExpr F) :=
  (run.report.filter fun e => known files run.currentDb e.exprId && e.count ≠ 0).map (run, ·)

/-- The first run of each maximal block of consecutive runs of one statement in one database. -/
def blockFirsts (runs : List (Run F)) : List (Run F) := (runs.splitBy samePair).filterMap List.head?

def Describes (files : Files F) (x : Run F × ReportExpr F) (row : FeatureRow F) : Prop :=
  recordRow files x.1 x.2 = some (some row)

/-- A row is written for an expression that is wanted, and none for another. -/
lemma recordRow_isSome {files : Files F} {run : Run F} {e : ReportExpr F} {row : Option (FeatureRow F)}
    (read : recordRow files run e = some row) : row.isSome = (known files run.currentDb e.exprId && e.count ≠ 0) := by
  unfold recordRow at read
  unfold known
  split at read
  · cases read
  · rename_i exprs dictionary
    rw [dictionary, Option.bind_some]
    split at read
    · rename_i unknown
      cases read
      rw [unknown]
      rfl
    · rename_i steps found
      rw [found]
      split at read
      · rename_i zero
        cases read
        simp [zero]
      · rename_i evaluated
        obtain ⟨family, _, rfl⟩ := Option.map_eq_some_iff.mp read
        simp [evaluated]

lemma features_describes {files : Files F} {run : Run F} {rows : List (FeatureRow F)}
    (written : features files run = some rows) : List.Forall₂ (Describes files) (wanted files run) rows := by
  obtain ⟨all, read, rfl⟩ := Option.map_eq_some_iff.mp written
  rw [mapM_eq_some_iff] at read
  clear written
  unfold wanted
  generalize run.report = report at read ⊢
  induction read with
  | nil => exact .nil
  | @cons e row report rows here _ ih =>
    have isSome := recordRow_isSome here
    cases row with
    | none =>
      rw [Option.isSome_none] at isSome
      rw [List.filter_cons_of_neg (fun kept => by rw [← isSome] at kept; cases kept)]
      exact ih
    | some row =>
      rw [Option.isSome_some] at isSome
      rw [List.filter_cons_of_pos (by exact isSome.symm)]
      exact .cons here ih

lemma countLoop_describes {files : Files F} (runs : List (Run F)) :
    ∀ {c : LineCounter} {prev : Option (Run F)} {rows : List (FeatureRow F)}, c.Behind prev →
      countLoop files c runs = some rows →
      List.Forall₂ (Describes files) ((starts sameSql prev runs).flatMap (wanted files)) rows := by
  induction runs with
  | nil =>
    intro c prev rows _ written
    cases written
    exact .nil
  | cons run rest ih =>
    intro c prev rows behind written
    have first := behind.first run
    rw [countLoop] at written
    split at written
    · cases written
    · rename_i here read
      obtain ⟨later, rest, rfl⟩ := Option.map_eq_some_iff.mp written
      have described := ih (c.next_behind run) rest
      rw [starts]
      cases old : prev.any (sameSql · run) with
      | false =>
        rw [if_pos (first.mpr old)] at read
        exact List.rel_append (features_describes read) described
      | true =>
        rw [if_neg (fun new => by rw [first.mp new] at old; cases old)] at read
        cases read
        exact described

/-- **Which runs are written.** The rows are those of the first runs of all blocks of one statement
in one database exactly if no such block that has an expression to be written follows a block of
the same statement in another database. -/
theorem countRows_blocks_iff (files : Files F) (runs : List (Run F)) (rows : List (FeatureRow F))
    (written : countRows files runs = some rows) :
    List.Forall₂ (Describes files) ((blockFirsts runs).flatMap (wanted files)) rows ↔
      ∀ a b, [a, b] <:+: runs → a.currentSql = b.currentSql → a.currentDb ≠ b.currentDb → wanted files b = [] := by
  have behind : LineCounter.start.Behind (none : Option (Run F)) := rfl
  have described := countLoop_describes runs behind written
  have sublist := flatMap_starts_sublist (wanted files) sameSql_of_samePair runs none
  rw [blockFirsts, heads_splitBy]
  have same : List.Forall₂ (Describes files) ((starts samePair none runs).flatMap (wanted files)) rows ↔
      (starts samePair none runs).flatMap (wanted files) = (starts sameSql none runs).flatMap (wanted files) := by
    constructor
    · intro blocks
      exact (sublist.eq_of_length (described.length_eq.trans blocks.length_eq.symm)).symm
    · intro equal
      rw [equal]
      exact described
  rw [same]
  cases runs with
  | nil => simp [starts]
  | cons run rest =>
    simp only [starts, Option.any_none, Bool.false_eq_true, if_false, List.flatMap_cons, List.append_cancel_left_eq]
    rw [flatMap_starts_eq_iff (wanted files) sameSql_of_samePair]
    refine forall₂_congr fun a b => imp_congr_right fun _ => ?_
    rw [sameSql, decide_eq_true_eq]
    refine imp_congr_right fun sql => imp_congr_left ?_
    exact samePair_eq_false (decide_eq_true sql)

end Script

/-! ## One statement in two databases -/

/-- The expression 1 is in the dictionaries of both databases. -/
def twoDatabases : Files ℚ where
  exprEeops := (Dict.empty.set "d" (Dict.empty.set 1 [])).set "e" (Dict.empty.set 1 [])
  eeopFactors := .empty

/-- A run whose only expression is the filter of a scan. -/
def countedRun (sql : Text) (db : Char) : Run ℚ where
  exprs := []
  planTime := 1
  execTime := 5
  operators := [⟨⟨1, "T_SeqScan", 0, 5⟩, 100, 10, 90, 0, 3, .invalid, .invalid⟩]
  sql := sql
  db := [db]
  report := [⟨1, 100, ⟨1, "T_SeqScan", 0, 5⟩⟩]

/-- Runs of two statements, each in one database, are all written. -/
theorem countRows_twoStatements :
    ∃ rows, countRows twoDatabases [countedRun ['a'] 'd', countedRun ['b'] 'e'] = some rows ∧
      List.Forall₂ (Describes twoDatabases)
        ((blockFirsts [countedRun ['a'] 'd', countedRun ['b'] 'e']).flatMap (wanted twoDatabases)) rows := by
  have isSome : (countRows twoDatabases [countedRun ['a'] 'd', countedRun ['b'] 'e']).isSome = true := by decide +kernel
  obtain ⟨rows, written⟩ := Option.isSome_iff_exists.mp isSome
  refine ⟨rows, written, (countRows_blocks_iff twoDatabases _ rows written).mpr fun a b inside sql => ?_⟩
  obtain ⟨rfl, rfl⟩ : a = countedRun ['a'] 'd' ∧ b = countedRun ['b'] 'e' := by
    simpa using inside.eq_of_length rfl
  exact absurd sql (by decide)

/-- **The second database is left out** where the last statement of the first one is its first. -/
theorem countRows_twoDatabases :
    ∃ rows, countRows twoDatabases [countedRun ['a'] 'd', countedRun ['a'] 'e'] = some rows ∧
      rows.map FeatureRow.db = [['d']] ∧
      ((blockFirsts [countedRun ['a'] 'd', countedRun ['a'] 'e']).flatMap (wanted twoDatabases)).map
        (fun x => x.1.currentDb) = [['d'], ['e']] ∧
      ¬ List.Forall₂ (Describes twoDatabases)
        ((blockFirsts [countedRun ['a'] 'd', countedRun ['a'] 'e']).flatMap (wanted twoDatabases)) rows := by
  have left : (countRows twoDatabases [countedRun ['a'] 'd', countedRun ['a'] 'e']).map
      (List.map FeatureRow.db) = some [['d']] := by decide +kernel
  obtain ⟨rows, written, dbs⟩ := Option.map_eq_some_iff.mp left
  have firsts : ((blockFirsts [countedRun ['a'] 'd', countedRun ['a'] 'e']).flatMap (wanted twoDatabases)).map
      (fun x => x.1.currentDb) = [['d'], ['e']] := by decide +kernel
  refine ⟨rows, written, dbs, firsts, fun described => ?_⟩
  have lengths := described.length_eq
  rw [← List.length_map (f := fun x => x.1.currentDb), firsts, ← List.length_map (f := FeatureRow.db), dbs] at lengths
  cases lengths

end Hex.Analysis.CountScript
