/-
# Kernel.ExplainLevel — the level in time.csv

`ExplainOnePlan` (commands/explain.c) writes the global `pgJITLevel` as the first field of its line
of time.csv. `ExplainPrintJIT` sets it from the flags of the executor state, when it prints something:
with the option COSTS, and if functions were created. Nothing sets it back.

`session` runs any sequence of EXPLAIN ANALYZE statements in one backend with `enableME` on, each with
the calls of `jit_compile_expr` that its execution makes; `levelField_iff` says when the field is the
largest level at which an expression of the statement was compiled.
-/
import Hex.Kernel.JitRouting

namespace Hex.Kernel.ExplainLevel

open ExprTable JitRouting

section Session

variable {Cost : Type} {b b' : Backend Cost} {cfg : Settings} {r : Outcome Cost}
  {handed : List (Option (Parent Cost) × List Int)} {compiled : List (Nat × Int)}

/-- One call of `ExplainOnePlan` with ANALYZE. -/
structure Explained (Cost : Type) where
  containExpr : Bool
  testME : Bool
  /-- `es->costs` -/
  costs : Bool
  /-- the globals, and the flags of the planner, when the execution starts -/
  start : Statement Cost
  /-- the executor state of the plan; SQL functions that it calls have their own -/
  estate : Nat
  /-- the expressions that are handed to `jit_compile_expr` -/
  handed : List (Option (Parent Cost) × List Int)
  /-- `created_functions` of the parallel workers, where `containExpr` is off and the level 0 -/
  workers : Nat

/-- What the execution leaves: for each expression that was compiled its executor state and its
level, and `es_jit_flags` of the plan. -/
structure Execution where
  compiled : List (Nat × Int)
  flags : Flags

/-- The executor state and level of an expression, if it was compiled. -/
def compiledAt (parent : Option (Parent Cost)) (r : Outcome Cost) : Option (Nat × Int) :=
  match r.route with
  | .interpreter => none
  | .compiled _ => parent.map fun parent => (parent.estate, r.level.getD 0)

def handAll [DecidableEq Cost] (cfg : Settings) (provider : Bool) :
    Backend Cost → List (Option (Parent Cost) × List Int) → Option (Backend Cost × List (Nat × Int))
  | b, [] => some (b, [])
  | b, (parent, steps) :: rest =>
    (jitCompileExpr cfg provider b parent steps).bind fun r =>
      (handAll cfg provider r.backend rest).map fun after =>
        (after.1, (compiledAt parent r).toList ++ after.2)

def execute [DecidableEq Cost] (provider : Bool) (table : Table) (x : Explained Cost) : Option (Table × Execution) :=
  let cfg : Settings := { enableME := true, containExpr := x.containExpr, testME := x.testME }
  (handAll cfg provider { table := table, statement := x.start } x.handed).map fun after =>
    (after.1.table, { compiled := after.2, flags := after.1.statement.flags x.estate })

/-- The levels of the expressions of one executor state that were compiled. -/
def levelsIn (estate : Nat) (compiled : List (Nat × Int)) : List Int :=
  (compiled.filter fun c => c.1 = estate).map Prod.snd

def createdFunctions (x : Explained Cost) (r : Execution) : Nat :=
  (levelsIn x.estate r.compiled).length + x.workers

/-- `ExplainPrintJIT`: what it makes of `pgJITLevel`. -/
def explainPrintJit (pgJITLevel : Int) (flags : Flags) (createdFunctions : Nat) : Int :=
  if createdFunctions = 0 then pgJITLevel
  else
    let pgJITLevel := 1
    let pgJITLevel := if flags.inlining then 2 else pgJITLevel
    if flags.opt3 then 3 else pgJITLevel

def explainPrintJitSummary (pgJITLevel : Int) (x : Explained Cost) (r : Execution) : Int :=
  if r.flags.perform then explainPrintJit pgJITLevel r.flags (createdFunctions x r) else pgJITLevel

/-- The end of `ExplainOnePlan`: `pgJITLevel`, and the field of time.csv. -/
def explainOnePlan (pgJITLevel : Int) (x : Explained Cost) (r : Execution) : Int × Option Int :=
  let pgJITLevel := if x.costs then explainPrintJitSummary pgJITLevel x r else pgJITLevel
  (pgJITLevel, if x.containExpr then some pgJITLevel else none)

/-- A statement, what its execution left, and the field that was written for it. -/
structure Line (Cost : Type) where
  statement : Explained Cost
  execution : Execution
  field : Option Int

/-- A sequence of statements. -/
def session [DecidableEq Cost] (provider : Bool) : Table → Int → List (Explained Cost) → Option (List (Line Cost))
  | _, _, [] => some []
  | table, pgJITLevel, x :: rest =>
    (execute provider table x).bind fun (table, r) =>
      let (pgJITLevel, field) := explainOnePlan pgJITLevel x r
      (session provider table pgJITLevel rest).map ({ statement := x, execution := r, field := field } :: ·)

/-! ## What is shown -/

/-- The largest level at which an expression was compiled, and 0 if none was. -/
def Execution.largest (r : Execution) : Int := (r.compiled.map Prod.snd).max?.getD 0

/-- The level that flags stand for which the planner has set, when expressions were compiled at the given
levels. -/
def shown (flags : Flags) (levels : List Int) : Int :=
  if flags.opt3 ∨ 3 ∈ levels then 3 else if flags.inlining ∨ ∃ l ∈ levels, 2 ≤ l then 2 else 1

/-- **When the shown level is the largest one**, by cases on the flags: level 3 was compiled; or
`PGJIT_OPT3` is not set and level 2 was; or `PGJIT_INLINE` is not set either and level 1 was. -/
theorem shown_eq_max_iff (flags : Flags) {levels : List Int} (known : ∀ l ∈ levels, 0 ≤ l ∧ l ≤ 3) :
    shown flags levels = levels.max?.getD 0 ↔ 3 ∈ levels ∨ flags.opt3 = false ∧ (2 ∈ levels ∨
      flags.inlining = false ∧ 1 ∈ levels) := by
  have max (n : Int) (positive : 0 < n) : n = levels.max?.getD 0 ↔ n ∈ levels ∧ ∀ l ∈ levels, l ≤ n := by
    rw [← List.max?_eq_some_iff]
    cases levels.max? with
    | none => simp [positive.ne']
    | some m => simp [eq_comm]
  unfold shown
  split_ifs with three two
  · rw [max 3 (by decide)]
    grind
  · rw [max 2 (by decide)]
    grind
  · rw [max 1 (by decide)]
    grind

/-- `ExplainPrintJIT` prints something for the statement. -/
def Line.Prints (line : Line Cost) : Prop :=
  line.statement.costs = true ∧ line.execution.flags.perform = true ∧ createdFunctions line.statement line.execution ≠ 0

instance (line : Line Cost) : Decidable line.Prints := inferInstanceAs (Decidable (_ ∧ _ ∧ _))

/-- The level of the last statement for which something was printed. -/
def lastShown (level : Int) (lines : List (Line Cost)) : Int :=
  ((lines.filter (·.Prints)).getLast?.map fun line => shown line.execution.flags []).getD level

lemma explainOnePlan_level (level : Int) (line : Line Cost) : (explainOnePlan level line.statement line.execution).1 =
      if line.Prints then shown line.execution.flags [] else level := by
  unfold explainOnePlan explainPrintJitSummary explainPrintJit Line.Prints shown
  simp only [List.not_mem_nil, or_false, false_and, exists_false]
  grind

lemma lastShown_cons (level : Int) (line : Line Cost) (lines : List (Line Cost)) : lastShown level (line :: lines) =
      lastShown (if line.Prints then shown line.execution.flags [] else level) lines := by
  unfold lastShown
  by_cases prints : line.Prints
  · rw [List.filter_cons_of_pos (by simpa using prints), List.getLast?_cons, if_pos prints]
    cases (lines.filter (·.Prints)).getLast? <;> rfl
  · rw [List.filter_cons_of_neg (by simpa using prints), if_neg prints]

variable [DecidableEq Cost]

lemma session_line {provider : Bool} {table : Table} {level : Int} {xs : List (Explained Cost)}
    {lines before behind : List (Line Cost)} {line : Line Cost}
    (ran : session provider table level xs = some lines) (cut : lines = before ++ line :: behind) :
    (∃ table result, execute provider table line.statement = some (result, line.execution)) ∧
      line.field = (explainOnePlan (lastShown level before) line.statement line.execution).2 := by
  induction xs generalizing table level lines before with
  | nil =>
    cases ran
    cases before <;> cases cut
  | cons x rest ih =>
    obtain ⟨⟨after, r⟩, executed, lines'⟩ := Option.bind_eq_some_iff.mp ran
    obtain ⟨later, next, rfl⟩ := Option.map_eq_some_iff.mp lines'
    cases before with
    | nil =>
      obtain ⟨rfl, rfl⟩ := List.cons.inj cut
      exact ⟨⟨table, after, executed⟩, rfl⟩
    | cons first before =>
      obtain ⟨rfl, others⟩ := List.cons.inj cut
      rw [lastShown_cons, ← explainOnePlan_level]
      exact ih next others

/-! ## The flags -/

/-- The flags after expressions were compiled at the given levels. -/
structure Raised (old new : Flags) (levels : List Int) : Prop where
  inlining : new.inlining = true ↔ old.inlining = true ∨ ∃ l ∈ levels, 2 ≤ l
  opt3 : new.opt3 = true ↔ old.opt3 = true ∨ 3 ∈ levels

lemma Raised.append {old mid new : Flags} {a b : List Int} (first : Raised old mid a) (second : Raised mid new b) :
    Raised old new (a ++ b) where
  inlining := by
    rw [second.inlining, first.inlining, or_assoc]
    simp [or_and_right, exists_or]
  opt3 := by rw [second.opt3, first.opt3, or_assoc, List.mem_append]

lemma shown_raised {old new : Flags} {levels : List Int} (raised : Raised old new levels) :
    shown new [] = shown old levels := by
  simp [shown, raised.inlining, raised.opt3]

lemma slotFor_flags {st st' : Statement Cost} {id j : Nat} {steps : List Int} {key : Operator Cost}
    (slot : slotFor cfg st id steps key = some (st', j)) : st'.flags = st.flags := by
  unfold slotFor recordInfo takeSlot at slot
  grind

omit [DecidableEq Cost] in
lemma raised_unslotted (flags : Flags) (e : Nat) (parent : Option (Parent Cost))
    (unslotted : r.level = none) : Raised flags flags (levelsIn e (compiledAt parent r).toList) := by
  have zero : ∀ l ∈ levelsIn e (compiledAt parent r).toList, l = 0 := by
    unfold levelsIn compiledAt
    rw [unslotted]
    cases r.route <;> cases parent <;> simp
  constructor
  · refine (or_iff_left ?_).symm
    rintro ⟨l, member, large⟩
    rw [zero l member] at large
    omega
  · refine (or_iff_left fun member => ?_).symm
    cases zero 3 member

lemma jitCompileExpr_raised {parent : Option (Parent Cost)} {steps : List Int}
    (called : jitCompileExpr cfg true b parent steps = some r) (e : Nat) :
    Raised (b.statement.flags e) (r.backend.statement.flags e) (levelsIn e (compiledAt parent r).toList) := by
  unfold jitCompileExpr at called
  split at called
  · cases called
    exact raised_unslotted _ e _ rfl
  rename_i parent
  split at called
  swap
  · cases called
    exact raised_unslotted _ e _ rfl
  split at called
  · cases called
  · split at called
    · cases called
    rename_i st j slot
    rw [← slotFor_flags slot]
    dsimp only at called
    split at called
    · cases called
      exact ⟨by simp [compiledAt, levelsIn], by simp [compiledAt, levelsIn]⟩
    · rw [checkFlags_raised, if_pos rfl] at called
      cases called
      by_cases here : parent.estate = e
      · subst here
        constructor <;> simp [compiledAt, levelsIn, raiseFlags, @eq_comm _ (3 : Int)]
      · have other : e ≠ parent.estate := fun same => here same.symm
        constructor <;> simp [compiledAt, levelsIn, raiseFlags, here, other]
  · cases called
    exact raised_unslotted _ e _ rfl

lemma handAll_raised (ran : handAll cfg true b handed = some (b', compiled)) (e : Nat) :
    Raised (b.statement.flags e) (b'.statement.flags e) (levelsIn e compiled) := by
  induction handed generalizing b compiled with
  | nil =>
    cases ran
    exact ⟨by simp [levelsIn], by simp [levelsIn]⟩
  | cons call rest ih =>
    obtain ⟨r, called, after⟩ := Option.bind_eq_some_iff.mp ran
    obtain ⟨⟨_, later⟩, next, eq⟩ := Option.map_eq_some_iff.mp after
    cases eq
    rw [levelsIn, List.filter_append, List.map_append]
    exact (jitCompileExpr_raised called e).append (ih next)

lemma handAll_unprovided (ran : handAll cfg false b handed = some (b', compiled)) : compiled = [] := by
  induction handed generalizing b compiled with
  | nil =>
    cases ran
    rfl
  | cons call rest ih =>
    obtain ⟨r, called, after⟩ := Option.bind_eq_some_iff.mp ran
    obtain ⟨⟨_, later⟩, next, eq⟩ := Option.map_eq_some_iff.mp after
    cases eq
    have interpreted : r.route = .interpreter := by
      unfold jitCompileExpr checkFlags WillCompile at called
      grind
    rw [compiledAt, interpreted, ih next]
    rfl

/-- **When the field of time.csv is the largest level at which an expression of the statement was
compiled.** Where something is printed, it is the level that the flags of the planner stand for,
with what was compiled in the executor state of the plan; and where nothing is printed, the last level
that was shown before. -/
theorem levelField_iff (provider : Bool) (table : Table) (xs : List (Explained Cost)) (before behind : List (Line Cost))
    (line : Line Cost) (field : Int) (ran : session provider table 0 xs = some (before ++ line :: behind))
    (written : line.field = some field) :
    field = line.execution.largest ↔ (if line.Prints then shown (line.statement.start.flags line.statement.estate)
          (levelsIn line.statement.estate line.execution.compiled)
        else lastShown 0 before) = line.execution.largest := by
  obtain ⟨⟨_, _, executed⟩, eq⟩ := session_line ran rfl
  have level : field = if line.Prints then shown line.execution.flags [] else lastShown 0 before := by
    have second : some field = if line.statement.containExpr then
        some (explainOnePlan (lastShown 0 before) line.statement line.execution).1 else none := written ▸ eq
    rw [← explainOnePlan_level]
    split at second
    · exact Option.some.inj second
    · cases second
  rw [level]
  split
  swap
  · rfl
  obtain ⟨⟨b, compiled⟩, ran, same⟩ := Option.map_eq_some_iff.mp executed
  generalize line.execution = r at same
  cases same
  cases provider with
  | true => rw [shown_raised (handAll_raised ran _)]
  | false =>
    -- nothing was compiled, and what is shown is a level
    obtain rfl := handAll_unprovided ran
    have none : Execution.largest ⟨[], b.statement.flags line.statement.estate⟩ = 0 := rfl
    have some : ∀ flags : Flags, shown flags [] ≠ 0 := fun flags => by
      unfold shown
      split_ifs <;> decide
    rw [none]
    exact iff_of_false (some _) (some _)

end Session

/-! ## Two statements -/

/-- A statement with one expression, at a level from the levels file. -/
def atLevel (level : Int) : Explained Nat where
  containExpr := true
  testME := true
  costs := true
  start := { quiet with currentExprJITLevels := fun _ => level }
  estate := 0
  handed := [(some node, [1, 0])]
  workers := 0

/-- The fields of the lines and the largest levels. -/
def fields (xs : List (Explained Nat)) : Option (List (Option Int × Int)) :=
  (session true (initial fun _ _ => 0) 0 xs).map (List.map fun line => (line.field, line.execution.largest))

theorem levelField_two : ∃ line : Line Nat, session true (initial fun _ _ => 0) 0 [atLevel 2] = some [line] ∧
    line.field = some 2 ∧ line.execution.largest = 2 := by
  refine ⟨_, rfl, rfl, ?_⟩
  exact ((levelField_iff true (initial fun _ _ => 0) [atLevel 2] [] [] _ 2 rfl rfl).mpr (by decide)).symm

/-- The level of the first statement is written again for the second one, which compiles nothing. -/
theorem levelField_stale : fields [atLevel 1, atLevel 0] = some [(some 1, 1), (some 1, 0)] := by
  decide +kernel

end Hex.Kernel.ExplainLevel
