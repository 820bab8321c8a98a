/-
# Kernel.JitRouting — from an expression to a module

`jit_compile_expr` (jit.c) decides, expression by expression, between the
interpreter and one of the modules of `JitContext`. With `enableME` on and a
statement with expressions it first gives the expression a slot: the number of
its step sequence in the expression table and its plan node select one, and the
level of the slot decides. Then the flag checks of the original function
follow. An expression that got no slot reaches them too, with the JIT level 0.

`currentSQLExprs` and `currentExprList` are lists whose lengths are the counters
`allExprInfoNum` and `currentExprNum`; an append past `EXPR_MAX_NUM` entries, and
copying more than `EXPR_SIZE` steps, leaves the arrays and is `none`.
-/
import Hex.Kernel.ExprIdentity
import Hex.Kernel.JitContext

namespace Hex.Kernel.JitRouting

open ExprTable JitContext

def exprMaxNum : Nat := 64

/-- A plan node, as `findOperatorInfo` compares them; `Cost` is the type of costs. -/
structure Operator (Cost : Type) where
  optId : Int
  type : Int
  startupCost : Cost
  totalCost : Cost
  deriving DecidableEq

/-- An entry of `currentSQLExprs`. -/
structure ExprInfo (Cost : Type) where
  expressionId : Nat
  op : Option (Operator Cost)
  count : Nat
  hash : Int
  steps : List Int

/-- An entry of `currentExprList`: a level slot. -/
structure Slot (Cost : Type) where
  expressionId : Nat
  op : Option (Operator Cost)
  stepLens : Nat
  hash : Int

/-- `es_jit_flags`, the flags this code reads or sets. -/
structure Flags where
  perform : Bool
  expr : Bool
  inlining : Bool
  opt3 : Bool
  deriving DecidableEq, Repr

structure Statement (Cost : Type) where
  currentSQLOpts : List (Operator Cost)
  currentSQLExprs : List (ExprInfo Cost)
  currentExprList : List (Slot Cost)
  currentExprJITLevels : Nat → Int
  flags : Nat → Flags
  jitEnabled : Bool

structure Backend (Cost : Type) where
  table : Table
  statement : Statement Cost

/-- The parent plan state of an expression: its plan node, and its executor state. -/
structure Parent (Cost : Type) where
  plan : Option (Operator Cost)
  estate : Nat

structure Settings where
  enableME : Bool
  containExpr : Bool
  testME : Bool

/-- Where an expression goes. -/
inductive Route where
  | interpreter
  | compiled (module : ModuleType)
  deriving DecidableEq, Repr

/-- What a call leaves behind: `level` is the level of the slot, if there is one. -/
structure Outcome (Cost : Type) where
  backend : Backend Cost
  route : Route
  level : Option Int

section Route

variable {Cost : Type} [DecidableEq Cost]

/-- `findOperatorInfo`: the record with the given fields. -/
def findOperatorInfo (opts : List (Operator Cost)) (key : Operator Cost) : Option (Operator Cost) :=
  opts.find? fun op => op = key

/-- An entry without an operator record is taken for the node `T_Invalid`. -/
def sameOperator (op : Option (Operator Cost)) (key : Operator Cost) (invalid : Bool) : Bool :=
  match op with
  | some op => op = key
  | none => invalid

/-- Look the expression up in `currentSQLExprs`, or append it. -/
def recordInfo (st : Statement Cost) (expressionId : Nat) (steps : List Int) (key : Operator Cost) :
    Option (Statement Cost) :=
  let eHash := calculateHash steps
  if st.currentSQLExprs.any fun info => info.hash = eHash && info.steps.length = steps.length &&
      sameOperator info.op key (key.type = 0) then some st
  else if st.currentSQLExprs.length < exprMaxNum ∧ steps.length ≤ exprSize then
    some { st with
      currentSQLExprs := st.currentSQLExprs ++
        [{ expressionId := expressionId, op := findOperatorInfo st.currentSQLOpts key, count := 0,
           hash := eHash, steps := steps }] }
  else none

/-- The slot of the expression in `currentExprList`, or a new one. -/
def takeSlot (cfg : Settings) (st : Statement Cost) (expressionId : Nat) (steps : List Int)
    (key : Operator Cost) : Option (Statement Cost × Nat) :=
  let eHash := calculateHash steps
  match st.currentExprList.findIdx? fun slot => slot.expressionId = expressionId &&
      slot.hash = eHash && slot.stepLens = steps.length &&
      sameOperator slot.op key (key.optId = 0 && key.type = 0) with
  | some j => some (st, j)
  | none =>
    let j := st.currentExprList.length
    if j < exprMaxNum then
      some ({ st with
        currentExprList := st.currentExprList ++
          [{ expressionId := expressionId, op := findOperatorInfo st.currentSQLOpts key,
             stepLens := steps.length, hash := eHash }]
        currentExprJITLevels :=
          if cfg.testME then st.currentExprJITLevels
          else Function.update st.currentExprJITLevels j 0 }, j)
    else none

def slotFor (cfg : Settings) (st : Statement Cost) (expressionId : Nat) (steps : List Int)
    (key : Operator Cost) : Option (Statement Cost × Nat) :=
  match recordInfo st expressionId steps key with
  | none => none
  | some st => takeSlot cfg st expressionId steps key

/-- A level other than 0 turns JIT on for the rest of the statement. -/
def raiseFlags (st : Statement Cost) (estate : Nat) (level : Int) : Statement Cost :=
  { st with
    jitEnabled := true
    flags := Function.update st.flags estate
      { perform := true
        expr := true
        inlining := (st.flags estate).inlining || decide (2 ≤ level)
        opt3 := (st.flags estate).opt3 || decide (level = 3) } }

/-- `(ModuleType) jit_level`, and the last branch of `llvm_mutable_module_select`
for a value that is none of the four. -/
def moduleOf (level : Int) : ModuleType :=
  if level = 1 then .moduleJit
  else if level = 2 then .moduleInline
  else if level = 3 then .moduleOpt
  else .moduleDef

/-- The checks of the original function all pass; `provider` says whether the
provider library can be loaded. -/
def WillCompile (provider : Bool) (st : Statement Cost) (estate : Nat) : Prop :=
  (st.flags estate).perform = true ∧ (st.flags estate).expr = true ∧ st.jitEnabled = true ∧ provider = true

instance (provider : Bool) (st : Statement Cost) (estate : Nat) :
    Decidable (WillCompile provider st estate) :=
  inferInstanceAs (Decidable (_ ∧ _ ∧ _ ∧ _))

/-- The end of the function: the original checks, then `llvm_compile_expr`. -/
def checkFlags (provider : Bool) (st : Statement Cost) (estate : Nat) (jitLevel : Int) : Route :=
  if WillCompile provider st estate then .compiled (moduleOf jitLevel) else .interpreter

def jitCompileExpr (cfg : Settings) (provider : Bool) (b : Backend Cost)
    (parent : Option (Parent Cost)) (steps : List Int) : Option (Outcome Cost) :=
  match parent with
  | none => some { backend := b, route := .interpreter, level := none }
  | some parent =>
    if cfg.enableME ∧ cfg.containExpr then
      match addExpression b.table steps, parent.plan with
      | none, _ => none
      | some (table, some i), some key =>
        match slotFor cfg b.statement (table.exprTypes i).expressionId steps key with
        | none => none
        | some (st, j) =>
          let level := st.currentExprJITLevels j
          if level = 0 then
            some { backend := { table := table, statement := st }, route := .interpreter,
                   level := some level }
          else
            let st := raiseFlags st parent.estate level
            some { backend := { table := table, statement := st },
                   route := checkFlags provider st parent.estate level, level := some level }
      | some (table, _), _ =>
        -- no slot: the JIT level is still the 0 it was set to
        some { backend := { b with table := table },
               route := checkFlags provider b.statement parent.estate 0, level := none }
    else
      some { backend := b, route := checkFlags provider b.statement parent.estate 0,
             level := none }

/-! ## One call -/

/-- What a level asks for: 0 and the lack of a slot leave the expression to the
interpreter, 1, 2 and 3 send it to their modules, and nothing goes to the default
module. -/
structure Right (level : Option Int) (route : Route) : Prop where
  unslotted : level = none → route = .interpreter
  level0 : level = some 0 → route = .interpreter
  level1 : level = some 1 → route = .compiled .moduleJit
  level2 : level = some 2 → route = .compiled .moduleInline
  level3 : level = some 3 → route = .compiled .moduleOpt
  noDefault : route ≠ .compiled .moduleDef

/-- The levels that are served: 0, and 1 to 3 when there is a provider. Without
one any other value is harmless as well. -/
def LevelServed (provider : Bool) (level : Int) : Prop :=
  level = 0 ∨ ((level = 1 ∨ level = 2 ∨ level = 3) ↔ provider = true)

/-- When a call is routed right: it stays inside its arrays, an expression
without a slot meets flags that do not ask for JIT, and the level of a slot is
one that is served. -/
def Admissible (cfg : Settings) (provider : Bool) (b : Backend Cost) (parent : Parent Cost)
    (steps : List Int) : Prop :=
  match addExpression b.table steps, parent.plan with
  | none, _ => False
  | some (table, some i), some key =>
    ∃ st j, slotFor cfg b.statement (table.exprTypes i).expressionId steps key = some (st, j) ∧
      LevelServed provider (st.currentExprJITLevels j)
  | some _, _ => ¬ WillCompile provider b.statement parent.estate

omit [DecidableEq Cost] in
lemma checkFlags_raised (provider : Bool) (st : Statement Cost) (estate : Nat) (level : Int) :
    checkFlags provider (raiseFlags st estate level) estate level =
      if provider then .compiled (moduleOf level) else .interpreter := by
  cases provider <;> simp [checkFlags, WillCompile, raiseFlags]

omit [DecidableEq Cost] in
lemma right_unslotted (provider : Bool) (st : Statement Cost) (estate : Nat) :
    Right none (checkFlags provider st estate 0) ↔ ¬ WillCompile provider st estate := by
  by_cases will : WillCompile provider st estate
  · simp only [checkFlags, not_true_eq_false, iff_false, will]
    intro right
    exact right.noDefault rfl
  · simp only [checkFlags, will, not_false_eq_true, iff_true]
    constructor <;> simp

omit [DecidableEq Cost] in
lemma right_slotted (provider : Bool) (st : Statement Cost) (estate : Nat) {level : Int} (nonzero : level ≠ 0) :
    Right (some level) (checkFlags provider (raiseFlags st estate level) estate level) ↔
      LevelServed provider level := by
  rw [checkFlags_raised]
  simp only [LevelServed, nonzero, false_or]
  cases provider with
  | true =>
    simp only [if_true, iff_true]
    constructor
    · intro right
      by_contra other
      push Not at other
      exact right.noDefault (by simp [moduleOf, other])
    · rintro (rfl | rfl | rfl) <;> constructor <;> simp [moduleOf]
  | false =>
    simp only [Bool.false_eq_true, if_false, iff_false]
    constructor
    · rintro right (rfl | rfl | rfl)
      · cases right.level1 rfl
      · cases right.level2 rfl
      · cases right.level3 rfl
    · intro other
      push Not at other
      constructor <;> simp [other, nonzero]

/-- **When one call is routed right.** -/
theorem jitCompileExpr_right_iff {cfg : Settings} (on : cfg.enableME = true ∧ cfg.containExpr = true)
    (provider : Bool) (b : Backend Cost) (parent : Parent Cost) (steps : List Int) :
    (∃ r, jitCompileExpr cfg provider b (some parent) steps = some r ∧ Right r.level r.route) ↔
      Admissible cfg provider b parent steps := by
  simp only [jitCompileExpr, on, and_self, if_true, Admissible]
  cases added : addExpression b.table steps with
  | none => simp
  | some result =>
    obtain ⟨table, entry⟩ := result
    cases entry with
    | none => simpa using right_unslotted provider b.statement parent.estate
    | some i =>
      cases plan : parent.plan with
      | none => simpa using right_unslotted provider b.statement parent.estate
      | some key =>
        dsimp only
        cases slot : slotFor cfg b.statement (table.exprTypes i).expressionId steps key with
        | none => simp
        | some result =>
          obtain ⟨st, j⟩ := result
          by_cases zero : st.currentExprJITLevels j = 0
          · have right : Right (some (0 : Int)) .interpreter := by constructor <;> simp
            simpa [zero, LevelServed] using right
          · simpa [zero] using right_slotted provider st parent.estate zero

/-! ## Any sequence of expressions -/

/-- What happens in a backend: an expression is handed over, or the statement
changes. The table outlives the statement; what a new statement or a repetition
makes of the rest is left open. -/
inductive Event (Cost : Type) where
  | handed (parent : Parent Cost) (steps : List Int)
  | statement (st : Statement Cost)

/-- Every expression of a sequence is routed right. -/
def Routed (cfg : Settings) (provider : Bool) : Backend Cost → List (Event Cost) → Prop
  | _, [] => True
  | b, .handed parent steps :: rest =>
    ∃ r, jitCompileExpr cfg provider b (some parent) steps = some r ∧ Right r.level r.route ∧
      Routed cfg provider r.backend rest
  | b, .statement st :: rest => Routed cfg provider { b with statement := st } rest

/-- Every call of a sequence is admissible in the state it finds. -/
def Admitted (cfg : Settings) (provider : Bool) : Backend Cost → List (Event Cost) → Prop
  | _, [] => True
  | b, .handed parent steps :: rest =>
    Admissible cfg provider b parent steps ∧ ∀ r, jitCompileExpr cfg provider b (some parent) steps = some r →
        Admitted cfg provider r.backend rest
  | b, .statement st :: rest => Admitted cfg provider { b with statement := st } rest

/-- **When every expression of a sequence is routed right**, from any state of the
backend. -/
theorem routed_iff (cfg : Settings) (on : cfg.enableME = true ∧ cfg.containExpr = true)
    (provider : Bool) (events : List (Event Cost)) :
    ∀ b : Backend Cost, Routed cfg provider b events ↔ Admitted cfg provider b events := by
  induction events with
  | nil => exact fun _ => Iff.rfl
  | cons event rest ih =>
    intro b
    cases event with
    | statement st => exact ih _
    | handed parent steps =>
      have call := jitCompileExpr_right_iff on provider b parent steps
      constructor
      · rintro ⟨r, ran, right, others⟩
        refine ⟨call.mp ⟨r, ran, right⟩, fun r' ran' => ?_⟩
        rw [ran] at ran'
        cases ran'
        exact (ih _).mp others
      · rintro ⟨admissible, others⟩
        obtain ⟨r, ran, right⟩ := call.mpr admissible
        exact ⟨r, ran, right, (ih _).mpr (others r ran)⟩

def run (cfg : Settings) (provider : Bool) : Backend Cost → List (Event Cost) → Option (Backend Cost)
  | b, [] => some b
  | b, .handed parent steps :: rest =>
    match jitCompileExpr cfg provider b (some parent) steps with
    | none => none
    | some r => run cfg provider r.backend rest
  | b, .statement st :: rest => run cfg provider { b with statement := st } rest

end Route

/-! ## A full table -/

section Full

def searching : Settings := { enableME := true, containExpr := true, testME := false }

/-- A statement with no expression yet, planned without JIT. -/
def quiet : Statement Nat where
  currentSQLOpts := []
  currentSQLExprs := []
  currentExprList := []
  currentExprJITLevels := fun _ => 0
  flags := fun _ => { perform := false, expr := false, inlining := false, opt3 := false }
  jitEnabled := false

def planned : Statement Nat := { quiet with
  flags := fun _ => { perform := true, expr := true, inlining := false, opt3 := false }
  jitEnabled := true }

def node : Parent Nat := { plan := some ⟨1, 10, 0, 0⟩, estate := 0 }

/-- Two expressions of a scan, the first one at level 2. -/
theorem routed_iff_levels : Routed { searching with testME := true } true ⟨initial fun _ _ => 0, quiet⟩
    [.statement { quiet with currentSQLOpts := [⟨1, 10, 0, 0⟩], currentExprJITLevels := fun j => if j = 0 then 2 else 0 },
      .handed node [1, 0], .handed node [2, 1, 0]] := by
  refine (routed_iff _ ⟨rfl, rfl⟩ true _ _).mpr ⟨⟨_, 0, rfl, .inr (by decide)⟩, fun r ran => ?_⟩
  cases ran
  exact ⟨⟨_, 1, rfl, .inl rfl⟩, fun _ _ => trivial⟩

def statements (calls : List (List Int)) : List (Event Nat) :=
  calls.flatMap fun steps => [.statement quiet, .handed node steps]

lemma run_statements {log calls : List (List Int)} {b : Backend Nat}
    (refines : Refines log b.table) (marks : ∀ s ∈ log, calculateHash s ≠ 0)
    (short : ∀ s ∈ calls, s.length ≤ exprSize) (positive : ∀ s ∈ calls, 0 < calculateHash s) :
    ∃ last, run searching true b (statements calls) = some last ∧ Refines (calls.foldl register log) last.table := by
  induction calls generalizing log b with
  | nil => exact ⟨b, rfl, refines⟩
  | cons steps rest ih =>
    obtain ⟨bound, short⟩ := List.forall_mem_cons.mp short
    obtain ⟨here, positive⟩ := List.forall_mem_cons.mp positive
    obtain ⟨t', r, added, next⟩ := refines.add marks (marked_of_positive here) bound
    have marks' : ∀ s ∈ register log steps, calculateHash s ≠ 0 := by
      intro s member
      rcases register_mem member with old | rfl
      · exact marks s old
      · exact here.ne'
    have call : ∃ outcome, jitCompileExpr searching true { b with statement := quiet }
        (some node) steps = some outcome ∧ outcome.backend.table = t' := by
      cases r with
      | none => exact ⟨_, by simp [jitCompileExpr, searching, added]; rfl, rfl⟩
      | some i =>
        simp [jitCompileExpr, searching, added, node, slotFor, recordInfo, quiet, takeSlot,
          exprMaxNum, bound]
    obtain ⟨outcome, ran, table⟩ := call
    obtain ⟨last, others, final⟩ := ih (b := outcome.backend) (table ▸ next) marks' short positive
    refine ⟨last, ?_, final⟩
    simp only [statements, List.flatMap_cons, List.cons_append, List.nil_append, run, ran]
    exact others

def twoSteps (n : Nat) : List Int := [(n / 3 : Nat), (n % 3 : Nat)]

lemma hash_twoSteps {n : Nat} (small : n < exprListSize) : calculateHash (twoSteps n) = 153 + n := by
  have bound : n < 256 := small
  have first : ((17 : Int) * 3 + (n / 3 : Nat)).bmod (2 ^ 64) = 51 + (n / 3 : Nat) := by
    rw [Int.bmod_eq_of_le] <;> omega
  have second : ((51 + (n / 3 : Nat) : Int) * 3 + (n % 3 : Nat)).bmod (2 ^ 64) = 153 + n := by
    rw [Int.bmod_eq_of_le] <;> omega
  simp only [calculateHash, twoSteps, List.foldl_cons, List.foldl_nil, first, second]

lemma run_snoc {b last : Backend Nat} {events : List (Event Nat)} (st : Statement Nat)
    (ran : run searching true b events = some last) :
    run searching true b (events ++ [.statement st]) = some { last with statement := st } := by
  induction events generalizing b with
  | nil =>
    cases ran
    rfl
  | cons event rest ih =>
    cases event with
    | statement st' => exact ih ran
    | handed parent steps =>
      simp only [List.cons_append, run] at ran ⊢
      cases outcome : jitCompileExpr searching true b (some parent) steps with
      | none => simp [outcome] at ran
      | some r =>
        simp only [outcome] at ran
        exact ih ran

/-- **A full table sends expressions to the default module**: any expression with
a new key, in a statement that the planner wants compiled. -/
theorem full_table_routes {calls : List (List Int)} (short : ∀ s ∈ calls, s.length ≤ exprSize)
    (positive : ∀ s ∈ calls, 0 < calculateHash s) (distinct : (calls.map key).Nodup)
    (length : calls.length = exprListSize) {steps : List Int} (sign : 0 < calculateHash steps)
    (new : key steps ∉ calls.map key) : ∃ b r,
    run searching true ⟨initial fun _ _ => 0, quiet⟩ (statements calls ++ [.statement planned]) = some b ∧
    jitCompileExpr searching true b (some node) steps = some r ∧ r.level = none ∧ r.route = .compiled .moduleDef := by
  have marks : ∀ s ∈ calls, calculateHash s ≠ 0 := fun s member => (positive s member).ne'
  obtain ⟨last, ran, refines⟩ := run_statements (b := ⟨initial fun _ _ => 0, quiet⟩)
    (refines_initial _) (by simp) short positive
  rw [foldl_register (by simpa using distinct) (by simp [length]), List.nil_append] at refines
  have absent : ∀ i, i < exprListSize → ¬ ((last.table.exprTypes i).hash = calculateHash steps ∧
      (last.table.exprTypes i).stepLens = steps.length) := by
    intro i hi same
    exact new ((refines.stored_iff (by omega)).mp ⟨i, hi, (keys_eq_key (by omega)).mpr same⟩)
  have refused := refines.refuses (refines.full marks length) sign absent
  refine ⟨{ last with statement := planned },
    ⟨⟨{ last.table with updateExprList := true }, planned⟩, .compiled .moduleDef, none⟩,
    run_snoc planned ran, ?_, rfl, rfl⟩
  simp [jitCompileExpr, searching, refused, checkFlags, WillCompile, planned, moduleOf]

lemma hash_twoSteps_mem {s : List Int} (member : s ∈ (List.range exprListSize).map twoSteps) :
    ∃ n : Nat, n < exprListSize ∧ s.length = 2 ∧ calculateHash s = 153 + n := by
  obtain ⟨n, inRange, rfl⟩ := List.mem_map.mp member
  exact ⟨n, List.mem_range.mp inRange, rfl, hash_twoSteps (List.mem_range.mp inRange)⟩

/-- 256 expressions of two steps each fill the table; the next is compiled into
the default module. -/
theorem default_module_reached : ∃ b r,
    run searching true ⟨initial fun _ _ => 0, quiet⟩
      (statements ((List.range exprListSize).map twoSteps) ++ [.statement planned]) = some b ∧
    jitCompileExpr searching true b (some node) [90, 90] = some r ∧
      r.level = none ∧ r.route = .compiled .moduleDef := by
  have value : calculateHash [90, 90] = 513 := by decide
  refine full_table_routes ?_ ?_ ?_ (by simp) (by omega) ?_
  · intro s member
    obtain ⟨n, _, length, _⟩ := hash_twoSteps_mem member
    simp [length, exprSize]
  · intro s member
    obtain ⟨n, _, _, eq⟩ := hash_twoSteps_mem member
    omega
  · rw [List.map_map]
    refine List.nodup_range.map_on fun m hm n hn same => ?_
    simp only [Function.comp_apply, key, Prod.mk.injEq] at same
    obtain ⟨eq, _⟩ := same
    rw [hash_twoSteps (List.mem_range.mp hm), hash_twoSteps (List.mem_range.mp hn)] at eq
    omega
  · intro known
    obtain ⟨s, member, same⟩ := List.mem_map.mp known
    obtain ⟨n, small, _, eq⟩ := hash_twoSteps_mem member
    have other : calculateHash s = calculateHash [90, 90] := congrArg Prod.fst same
    have bound : n < 256 := small
    omega

end Full

end Hex.Kernel.JitRouting
