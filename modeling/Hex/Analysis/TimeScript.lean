/-
# Analysis.TimeScript — the time-analysis script

`analyzeData_Opt+Expr(Time).py` adds up, at the first run of a statement, how often each kind of
step was executed in each operator: for an expression of the report this is its count times the
number of these steps. At the second run it writes a row for each operator of that run, with the
sums. They are kept under the database, the statement and the operator, and are never set back:
runs of the same statement further up have added to them too.

**`timeStep_eeops_iff`** says when a row has the sums of the first run of its block.
-/
import Hex.Analysis.CountScript

namespace Hex.Analysis.TimeScript

open CountScript LevelScript OperatorTable
open Kernel.OpNames Kernel.Report
open Theory.Blocks Theory.CText Theory.FallibleLoop Theory.WriteLog

/-! ## The script -/

/-- `opt_vectors[db][sql][opt_id]["eeop_count"]`, for all databases, statements and operators. -/
abbrev EeopCounts := (Text × Text) × Int → Text → Int

/-- A row of time_vectors.csv; `eeops` has a cell for each name of a step. -/
structure TimeRow (F : Type) where
  sql : Text
  db : Text
  optId : Int
  optType : String
  startupCost : F
  totalCost : F
  startupTime : F
  totalTime : F
  inputRows : Int
  outputRows : Int
  filteredRows : Int
  left : OpKey F
  leftRows : Int
  leftTime : F
  right : OpKey F
  rightRows : Int
  rightTime : F
  eeops : List Int
  deriving DecidableEq, Repr

structure TimeState where
  counter : LineCounter
  counts : EeopCounts

section Script

variable {F : Type}

local instance lawfulText : LawfulBEq Text := inferInstance

/-- The steps of an expression: `none` is a `KeyError`, and `some none` an unknown expression. -/
def stepsOf (files : Files F) (run : Run F) (e : ReportExpr F) : Option (Option (List Text)) :=
  (files.exprEeops.get? (String.ofList run.currentDb)).map fun exprs => exprs.get? e.exprId

def addRecord (files : Files F) (run : Run F) (counts : EeopCounts) (e : ReportExpr F) : Option EeopCounts :=
  (stepsOf files run e).map fun
    | none => counts
    | some steps => fun key eeop =>
      if key = (run.pair, e.op.id) ∧ eeop ∈ opNames.map String.toList then
        counts key eeop + (steps.count eeop : Int) * e.count
      else counts key eeop

variable [DecidableEq F] [Zero F] [Max F] [Sub F]

/-- The row of an operator, with the sums; costs and times are without those of the children. -/
def timeRow (run : Run F) (counts : EeopCounts) (op : OpRow F) : Option (TimeRow F) :=
  (timeLookup (currentOpts run.operators) op).map fun children =>
    { sql := run.currentSql
      db := run.currentDb
      optId := op.key.id
      optType := op.key.type
      startupCost := op.key.startupCost
      totalCost := op.key.totalCost - max children.1.key.totalCost children.2.key.totalCost
      startupTime := op.startupTime
      totalTime := op.totalTime - max children.1.totalTime children.2.totalTime
      inputRows := inputRows op.key.type ⟨op, children.1, children.2⟩
      outputRows := op.outputRows
      filteredRows := op.filteredRows
      left := op.left
      leftRows := children.1.outputRows
      leftTime := children.1.totalTime
      right := op.right
      rightRows := children.2.outputRows
      rightTime := children.2.totalTime
      eeops := opNames.map fun name => counts (run.pair, op.key.id) name.toList }

def timeStep (files : Files F) (s : TimeState) (run : Run F) : Option (TimeState × List (TimeRow F)) :=
  let counter := s.counter.next run.currentSql
  if counter.lineNum = 1 then
    (run.report.foldlM (addRecord files run) s.counts).map fun counts => (⟨counter, counts⟩, [])
  else if counter.lineNum = 2 then
    (run.operators.mapM (timeRow run s.counts)).map fun rows => (⟨counter, s.counts⟩, rows)
  else some (⟨counter, s.counts⟩, [])

/-- The state behind a list of runs; `none` is an exception. -/
def timeState (files : Files F) (runs : List (Run F)) : Option TimeState :=
  runs.foldlM (fun s run => (timeStep files s run).map Prod.fst) ⟨.start, fun _ _ => 0⟩

end Script

/-! ## The sums -/

section Sums

variable {F : Type} {files : Files F} {s' : TimeState} {rows : List (TimeRow F)}

/-- What an expression adds to the sum of its operator; an unknown one adds nothing. -/
def recordSum (files : Files F) (run : Run F) (optId : Int) (eeop : Text) (e : ReportExpr F) : Int :=
  match stepsOf files run e with
  | some (some steps) => if e.op.id = optId then e.count * steps.count eeop else 0
  | _ => 0

/-- The sum over the expressions of a run that are in an operator: count times steps. -/
def runSum (files : Files F) (run : Run F) (optId : Int) (eeop : Text) : Int :=
  (run.report.map (recordSum files run optId eeop)).sum

/-- The sums of the runs of a statement in a database at which sums are added up. -/
def filledSum (files : Files F) (runs : List (Run F)) (pair : Text × Text) (optId : Int) (eeop : Text) : Int :=
  (((starts sameSql none runs).filter fun run => run.pair = pair).map fun run => runSum files run optId eeop).sum

/-- The first run of the block of consecutive runs of one statement in one database that `run`
belongs to, behind the runs `before`. -/
def blockFirst (before : List (Run F)) (run : Run F) : Run F :=
  (before.reverse.takeWhile (samePair · run)).getLast?.getD run

lemma foldlM_addRecord {run : Run F} {eeop : Text} (column : eeop ∈ opNames.map String.toList)
    (pair : Text × Text) (optId : Int) (report : List (ReportExpr F)) : ∀ {counts counts' : EeopCounts},
    report.foldlM (addRecord files run) counts = some counts' →
    counts' (pair, optId) eeop = counts (pair, optId) eeop +
      if run.pair = pair then (report.map (recordSum files run optId eeop)).sum else 0 := by
  induction report with
  | nil =>
    intro counts counts' added
    cases added
    simp
  | cons e report ih =>
    intro counts counts' added
    rw [List.foldlM_cons, Option.bind_eq_bind, Option.bind_eq_some_iff] at added
    obtain ⟨between, here, later⟩ := added
    obtain ⟨steps, found, rfl⟩ := Option.map_eq_some_iff.mp here
    rw [ih later, List.map_cons, List.sum_cons, recordSum, found]
    cases steps with
    | none => simp
    | some steps =>
      by_cases mine : run.pair = pair
      · by_cases inside : e.op.id = optId
        · simp [mine, inside, column, mul_comm, add_assoc]
        · simp [mine, inside, Ne.symm inside]
      · simp [mine, Ne.symm mine]

lemma filledSum_concat (files : Files F) (runs : List (Run F)) (run : Run F) (pair : Text × Text) (optId : Int)
    (eeop : Text) :
    filledSum files (runs ++ [run]) pair optId eeop = filledSum files runs pair optId eeop +
      if runs.getLast?.any (sameSql · run) = false ∧ run.pair = pair then runSum files run optId eeop else 0 := by
  unfold filledSum
  rw [starts_concat, Option.or_none]
  cases runs.getLast?.any (sameSql · run) with
  | true => simp
  | false => by_cases mine : run.pair = pair <;> simp [mine]

def Second (before' : List (Run F)) (f w : Run F) : Prop :=
  f.currentSql = w.currentSql ∧ before'.getLast?.any (sameSql · f) = false

lemma second_iff {c : LineCounter} {prev : Option (Run F)} (behind : c.Behind prev) (f w : Run F) :
    ((c.next f.currentSql).next w.currentSql).lineNum = 2 ↔
      f.currentSql = w.currentSql ∧ prev.any (sameSql · f) = false := by
  have last : (c.next f.currentSql).lastSql = f.currentSql := (c.next_behind f).2
  rw [← behind.first f, LineCounter.next, last]
  by_cases same : f.currentSql = w.currentSql
  · rw [if_neg (not_not.mpr same)]
    simp [same]
  · rw [if_pos same]
    simp [same]

/-- Where the second run of a statement follows the first one, it is in the block of that run if
the database is the same, and starts a block otherwise. -/
lemma blockFirst_concat (before : List (Run F)) {f w : Run F} (sql : f.currentSql = w.currentSql)
    (new : before.getLast?.any (sameSql · f) = false) :
    blockFirst (before ++ [f]) w = if f.currentDb = w.currentDb then f else w := by
  unfold blockFirst
  rw [List.reverse_concat, List.takeWhile_cons]
  have same : samePair f w = decide (f.currentDb = w.currentDb) := by
    simp [samePair, Run.pair, sql]
  rw [same]
  by_cases db : f.currentDb = w.currentDb
  · have stops : before.reverse.takeWhile (samePair · w) = [] := by
      cases reversed : before.reverse with
      | nil => rfl
      | cons p rest =>
        have last : before.getLast? = some p := by rw [← List.head?_reverse, reversed, List.head?_cons]
        rw [last, Option.any_some, sameSql, decide_eq_false_iff_not] at new
        have other : samePair p w = false := decide_eq_false fun pair => new ((congrArg Prod.snd pair).trans sql.symm)
        rw [List.takeWhile_cons, other]
        rfl
    simp [db, stops]
  · simp [db]

variable [DecidableEq F] [Zero F] [Max F] [Sub F]

lemma timeState_concat {runs : List (Run F)} {run : Run F} (ran : timeState files (runs ++ [run]) = some s') :
    ∃ s rows, timeState files runs = some s ∧ timeStep files s run = some (s', rows) := by
  unfold timeState at ran ⊢
  rw [List.foldlM_append, Option.bind_eq_bind, Option.bind_eq_some_iff] at ran
  obtain ⟨s, before, last⟩ := ran
  rw [List.foldlM_cons, Option.bind_eq_bind, Option.bind_eq_some_iff] at last
  obtain ⟨_, stepped, ends⟩ := last
  obtain ⟨⟨s1, rows⟩, here, rfl⟩ := Option.map_eq_some_iff.mp stepped
  obtain rfl : s1 = s' := Option.some.inj ends
  exact ⟨s, rows, before, here⟩

/-- What a run does: the first one of a statement adds to the sums, the second one writes rows, and
the others do nothing. -/
lemma timeStep_cases {s : TimeState} {run : Run F} (stepped : timeStep files s run = some (s', rows)) :
    s'.counter = s.counter.next run.currentSql ∧
      (s'.counter.lineNum = 1 ∧ run.report.foldlM (addRecord files run) s.counts = some s'.counts ∧ rows = [] ∨
        s'.counter.lineNum = 2 ∧ s'.counts = s.counts ∧ run.operators.mapM (timeRow run s.counts) = some rows ∨
        s'.counter.lineNum ≠ 1 ∧ s'.counter.lineNum ≠ 2 ∧ s'.counts = s.counts ∧ rows = []) := by
  unfold timeStep at stepped
  dsimp only at stepped
  split at stepped
  · rename_i first
    obtain ⟨_, added, same⟩ := Option.map_eq_some_iff.mp stepped
    cases same
    exact ⟨rfl, Or.inl ⟨first, added, rfl⟩⟩
  · rename_i first
    split at stepped
    · rename_i second
      obtain ⟨_, written, same⟩ := Option.map_eq_some_iff.mp stepped
      cases same
      exact ⟨rfl, Or.inr (Or.inl ⟨second, rfl, written⟩)⟩
    · rename_i second
      cases stepped
      exact ⟨rfl, Or.inr (Or.inr ⟨first, second, rfl, rfl⟩)⟩

/-- **The state behind a list of runs**: the counter is that of the last run, and the sums are
those of all first runs. -/
theorem timeState_sums (runs : List (Run F)) : ∀ {s : TimeState}, timeState files runs = some s →
    s.counter.Behind runs.getLast? ∧ ∀ (pair : Text × Text) (optId : Int), ∀ eeop ∈ opNames.map String.toList,
      s.counts (pair, optId) eeop = filledSum files runs pair optId eeop := by
  induction runs using List.reverseRecOn with
  | nil =>
    intro s ran
    cases ran
    exact ⟨rfl, fun _ _ _ _ => rfl⟩
  | append_singleton runs run ih =>
    intro s' ran
    obtain ⟨s, rows, before, stepped⟩ := timeState_concat ran
    obtain ⟨behind, sums⟩ := ih before
    obtain ⟨counter, done⟩ := timeStep_cases stepped
    have first := behind.first run
    rw [← counter] at first
    rw [List.getLast?_concat]
    refine ⟨counter ▸ s.counter.next_behind run, fun pair optId eeop column => ?_⟩
    rw [filledSum_concat, ← sums pair optId eeop column]
    obtain ⟨new, added, _⟩ | ⟨second, kept, _⟩ | ⟨old, _, kept, _⟩ := done
    · simp only [first.mp new, true_and]
      exact foldlM_addRecord column pair optId run.report added
    · have old : ¬ runs.getLast?.any (sameSql · run) = false := fun none => by
        rw [first.mpr none] at second
        cases second
      rw [if_neg fun both => old both.1, add_zero, kept]
    · rw [if_neg fun both => old (first.mpr both.1), add_zero, kept]

lemma timeStep_rows {before : List (Run F)} {w : Run F} {s : TimeState}
    (ran : timeState files before = some s) (stepped : timeStep files s w = some (s', rows)) :
    (rows = [] ∧ ∀ before' f, before = before' ++ [f] → ¬ Second before' f w) ∨
      ∃ before' f, before = before' ++ [f] ∧ Second before' f w ∧ w.operators.mapM (timeRow w s.counts) = some rows := by
  obtain ⟨counter, done⟩ := timeStep_cases stepped
  rcases List.eq_nil_or_concat' before with rfl | ⟨before0, f0, rfl⟩
  · have behind : s.counter.Behind (none : Option (Run F)) := (timeState_sums [] ran).1
    have first : s'.counter.lineNum = 1 := by rw [counter, behind.first w, Option.any_none]
    obtain ⟨_, _, none⟩ | ⟨second, _⟩ | ⟨other, _⟩ := done
    · exact Or.inl ⟨none, fun before' f same => absurd same.symm (List.concat_ne_nil f before')⟩
    · rw [first] at second
      cases second
    · exact absurd first other
  · obtain ⟨s0, rows0, ran0, stepped0⟩ := timeState_concat ran
    have second : s'.counter.lineNum = 2 ↔ Second before0 f0 w := by
      rw [counter, (timeStep_cases stepped0).1]
      exact second_iff (timeState_sums before0 ran0).1 f0 w
    have others (not : s'.counter.lineNum ≠ 2) (before' : List (Run F)) (f : Run F)
        (same : before0 ++ [f0] = before' ++ [f]) : ¬ Second before' f w := by
      obtain ⟨rfl, rfl⟩ := List.append_singleton_inj.mp same
      exact mt second.mpr not
    obtain ⟨first, _, none⟩ | ⟨two, _, written⟩ | ⟨_, other, _, none⟩ := done
    · exact Or.inl ⟨none, others (by rw [first]; decide)⟩
    · exact Or.inr ⟨before0, f0, rfl, second.mp two, written⟩
    · exact Or.inl ⟨none, others other⟩

/-- **Which sums are written.** At a run behind the runs `before`, each row has the sums of the
first run of its block exactly if the run is not the second one of its statement, or the runs of the
statement in this database further up, without the first run before it, add up to nothing; and, if
that run is of another database, to the sums of the run itself. -/
theorem timeStep_eeops_iff (files : Files F) (before : List (Run F)) (w : Run F) (s s' : TimeState)
    (rows : List (TimeRow F)) (ran : timeState files before = some s) (stepped : timeStep files s w = some (s', rows)) :
    (∀ row ∈ rows, row.eeops = opNames.map fun name => runSum files (blockFirst before w) row.optId name.toList) ↔
      ∀ before' f, before = before' ++ [f] → Second before' f w → ∀ op ∈ w.operators, ∀ name ∈ opNames,
        filledSum files before' w.pair op.key.id name.toList =
          if f.currentDb = w.currentDb then 0 else runSum files w op.key.id name.toList := by
  obtain ⟨rfl, none⟩ | ⟨before0, f0, rfl, ⟨sql, new⟩, written⟩ := timeStep_rows ran stepped
  · exact ⟨fun _ before' f same second => absurd second (none before' f same), fun _ => nofun⟩
  have sums := (timeState_sums _ ran).2 w.pair
  have cells : (∀ row ∈ rows, row.eeops = opNames.map fun name =>
        runSum files (blockFirst (before0 ++ [f0]) w) row.optId name.toList) ↔
      ∀ op ∈ w.operators, ∀ name ∈ opNames, s.counts (w.pair, op.key.id) name.toList =
        runSum files (blockFirst (before0 ++ [f0]) w) op.key.id name.toList := by
    constructor
    · intro all op member
      cases here : timeRow w s.counts op with
      | none =>
        rw [(mapM_eq_none_iff _ _).mpr ⟨op, member, here⟩] at written
        cases written
      | some row =>
        have equal := all row ((mem_of_mapM written row).mpr ⟨op, member, here⟩)
        obtain ⟨children, _, rfl⟩ := Option.map_eq_some_iff.mp here
        exact List.map_inj_left.mp equal
    · intro all row member
      obtain ⟨op, inside, here⟩ := (mem_of_mapM written row).mp member
      obtain ⟨children, _, rfl⟩ := Option.map_eq_some_iff.mp here
      exact List.map_inj_left.mpr (all op inside)
  rw [cells]
  have sum (op : OpRow F) (name : String) (column : name ∈ opNames) : s.counts (w.pair, op.key.id) name.toList =
          runSum files (blockFirst (before0 ++ [f0]) w) op.key.id name.toList ↔
        filledSum files before0 w.pair op.key.id name.toList =
          if f0.currentDb = w.currentDb then 0 else runSum files w op.key.id name.toList := by
    rw [sums op.key.id name.toList (List.mem_map_of_mem column), filledSum_concat, blockFirst_concat before0 sql new]
    by_cases db : f0.currentDb = w.currentDb
    · have pair : f0.pair = w.pair := by rw [Run.pair, Run.pair, db, sql]
      simp [new, pair, db]
    · have pair : f0.pair ≠ w.pair := fun same => db (congrArg Prod.fst same)
      simp [pair, db]
  constructor
  · intro all before' f same _ op member name column
    obtain ⟨rfl, rfl⟩ := List.append_singleton_inj.mp same
    exact (sum op name column).mp (all op member name column)
  · intro all op member name column
    exact (sum op name column).mpr (all before0 f0 rfl ⟨sql, new⟩ op member name column)

end Sums

/-! ## A statement that comes back -/

/-- The filter of the scan has one step. -/
def oneStep : Files ℚ where
  exprEeops := Dict.empty.set "d" (Dict.empty.set 1 ["EEOP_SCAN_VAR".toList])
  eeopFactors := .empty

def rowsBehind (before : List (Run ℚ)) (w : Run ℚ) : Option (List (TimeRow ℚ)) :=
  (timeState oneStep before).bind fun s => (timeStep oneStep s w).map Prod.snd

lemma rowsBehind_eq_some {before : List (Run ℚ)} {w : Run ℚ} {rows : List (TimeRow ℚ)}
    (written : rowsBehind before w = some rows) :
    ∃ s s', timeState oneStep before = some s ∧ timeStep oneStep s w = some (s', rows) := by
  obtain ⟨s, ran, stepped⟩ := Option.bind_eq_some_iff.mp written
  obtain ⟨⟨s', _⟩, here, rfl⟩ := Option.map_eq_some_iff.mp stepped
  exact ⟨s, s', ran, here⟩

/-- At the second run of a statement the sums are those of the first run. -/
theorem timeStep_twoRuns : ∃ rows, rowsBehind [countedRun ['a'] 'd'] (countedRun ['a'] 'd') = some rows ∧
      ∀ row ∈ rows, row.eeops = opNames.map fun name =>
        runSum oneStep (blockFirst [countedRun ['a'] 'd'] (countedRun ['a'] 'd')) row.optId name.toList := by
  have isSome : (rowsBehind [countedRun ['a'] 'd'] (countedRun ['a'] 'd')).isSome = true := by decide +kernel
  obtain ⟨rows, written⟩ := Option.isSome_iff_exists.mp isSome
  obtain ⟨s, s', ran, stepped⟩ := rowsBehind_eq_some written
  refine ⟨rows, written, (timeStep_eeops_iff oneStep _ _ s s' rows ran stepped).mpr fun before' f same _ _ _ _ _ => ?_⟩
  obtain ⟨rfl, rfl⟩ : before' = [] ∧ f = countedRun ['a'] 'd' := by
    rw [List.singleton_eq_append_iff] at same
    simpa [eq_comm] using same
  rfl

/-- **The runs further up are added again**: the statement was run before another one, and the 100
steps of the scan are written as 200. -/
theorem timeStep_comesBack :
    (rowsBehind [countedRun ['a'] 'd', countedRun ['b'] 'd', countedRun ['a'] 'd'] (countedRun ['a'] 'd')).map
        (List.map fun row => (row.optId, row.eeops[6]?)) = some [(1, some 200)] ∧
      opNames[6]? = some "EEOP_SCAN_VAR" ∧
      runSum oneStep (blockFirst [countedRun ['a'] 'd', countedRun ['b'] 'd', countedRun ['a'] 'd']
        (countedRun ['a'] 'd')) 1 "EEOP_SCAN_VAR".toList = 100 := by
  decide +kernel

end Hex.Analysis.TimeScript
