/-
# Kernel.Session — the registries of a statement, and their pointers

A statement with expressions fills two registries. `currentSQLExprs` has an entry
for each expression in an operator and is emptied at every statement;
`currentExprList` has the level slots, and is emptied only when the text of the
statement changes (`exec_simple_query`, tcop/postgres.c). The entries of both point
to a record of `currentSQLOpts`, through which `jit_compile_expr` (jit/jit.c) finds
them again, as in `JitRouting` with what the pointers read (`jitCompileExpr_view`).

The array of the records is freed and allocated anew at every statement with
expressions. A pointer here is a block, counted by allocation, and an index; what a
pointer into a freed block reads is given by a `Memory`: any function of the time and
the pointer. An access behind the
`OPT_LIST_SIZE` or `EXPR_MAX_NUM` entries of an array is `none`.
-/
import Hex.Kernel.PlanRecords
import Hex.Theory.CText

namespace Hex.Kernel.Session

open ExprTable PlanRecords Theory.CText
open JitRouting (Operator exprMaxNum)

/-! ## The text of a statement -/

/-- A text starts with a word, in any case: `strncasecmp(t, word, strlen(word)) == 0`. -/
def startsWith (word t : Text) : Bool := sameIgnoringCase (t.take word.length) word

def statementStart (query : Text) : Text :=
  let sql := trimStart query
  if startsWith "EXPLAIN".toList sql then
    let sql := trimStart (sql.drop 7)
    if startsWith "ANALYZE".toList sql then trimStart (sql.drop 7) else sql
  else sql

/-- `getSqlStatementType`: `CMD_SELECT` is 1, `CMD_UPDATE` 2, `CMD_INSERT` 3,
`CMD_DELETE` 4, `CMD_UNKNOWN` 0 and `CMD_NOTHING` 6. -/
def getSqlStatementType (query : Text) : Int :=
  let firstWord := ((statementStart query).takeWhile Char.isAlpha).map Char.toUpper
  if firstWord = "SET".toList then 6
  else if firstWord = "SELECT".toList then 1
  else if firstWord = "UPDATE".toList then 2
  else if firstWord = "INSERT".toList then 3
  else if firstWord = "DELETE".toList then 4
  else if firstWord = "BEGIN".toList ∨ firstWord = "START".toList then 6
  else if firstWord = "COMMIT".toList ∨ firstWord = "END".toList then 0
  else if firstWord = "ROLLBACK".toList ∨ firstWord = "ABORT".toList then -1
  else 6

def containExpr (query : Text) : Bool :=
  1 ≤ getSqlStatementType query && getSqlStatementType query ≤ 4

/-! ## The registries -/

/-- A pointer to a record of `currentSQLOpts`: the allocation, and the index. -/
structure OpPtr where
  block : Nat
  index : Nat
  deriving DecidableEq, Repr

/-- An entry of `currentSQLExprs`. -/
structure ExprInfo where
  expressionId : Nat
  op : Option OpPtr
  count : Nat
  hash : Int
  steps : List Int

/-- An entry of `currentExprList`. -/
structure Slot where
  expressionId : Nat
  op : Option OpPtr
  stepLens : Nat
  hash : Int
  deriving DecidableEq

/-- The globals of a backend; `tick` counts the expressions handed over. -/
structure State (D : Type) where
  table : Table
  currentStatement : Option Text
  block : Nat
  currentSQLOpts : List (OperatorInfo D)
  currentSQLExprs : List ExprInfo
  currentExprList : List Slot
  tick : Nat

/-- What a pointer into a freed block reads, at each time. -/
abbrev Memory (D : Type) := Nat → OpPtr → Operator D

/-- What happens while a statement runs: a query is planned, an expression is
handed to `jit_compile_expr`, the executor counts evaluations in the entries, and
EXPLAIN stores the measured values of a node in its record. -/
inductive Event (D : Type) where
  | planned (stmt : PlannedStmt D)
  | handed (plan : Option (PlanNode D)) (steps : List Int)
  | counted (counts : Nat → Nat)
  | measured (node : PlanNode D) (outputRows filteredRows startupTime totalTime : D)

/-- A statement: its text, and what happens until it ends or fails. -/
structure Query (D : Type) where
  text : Text
  events : List (Event D)

section Session

variable {D : Type}

def deref (mem : Memory D) (s : State D) (p : OpPtr) : Operator D :=
  if p.block = s.block then
    match s.currentSQLOpts[p.index]? with
    | some r => r.key
    | none => mem s.tick p
  else mem s.tick p

variable [DecidableEq D]

def findOperatorInfo (s : State D) (key : Operator D) : Option OpPtr :=
  (s.currentSQLOpts.findIdx? fun r => r.key = key).map fun i => ⟨s.block, i⟩

/-- An entry whose pointer is NULL is taken for the node `T_Invalid`. -/
def sameOperator (mem : Memory D) (s : State D) (op : Option OpPtr) (key : Operator D)
    (invalid : Bool) : Bool :=
  match op with
  | some p => deref mem s p = key
  | none => invalid

/-- The test of the loop over `currentSQLExprs`. -/
def infoMatches (mem : Memory D) (s : State D) (steps : List Int) (key : Operator D)
    (info : ExprInfo) : Bool :=
  info.hash = calculateHash steps && info.steps.length = steps.length && sameOperator mem s info.op key (key.type = 0)

/-- The test of the loop over `currentExprList`. -/
def slotMatches (mem : Memory D) (s : State D) (expressionId : Nat) (steps : List Int)
    (key : Operator D) (slot : Slot) : Bool :=
  slot.expressionId = expressionId && slot.hash = calculateHash steps &&
    slot.stepLens = steps.length && sameOperator mem s slot.op key (key.optId = 0 && key.type = 0)

/-- Look the expression up in `currentSQLExprs`, or append it. -/
def recordInfo (mem : Memory D) (s : State D) (expressionId : Nat) (steps : List Int)
    (key : Operator D) : Option (State D) :=
  if s.currentSQLExprs.any (infoMatches mem s steps key) then some s
  else if s.currentSQLExprs.length < exprMaxNum ∧ steps.length ≤ exprSize then
    some { s with
      currentSQLExprs := s.currentSQLExprs ++
        [{ expressionId := expressionId, op := findOperatorInfo s key, count := 0,
           hash := calculateHash steps, steps := steps }] }
  else none

/-- The slot of the expression in `currentExprList`, or a new one. -/
def takeSlot (mem : Memory D) (s : State D) (expressionId : Nat) (steps : List Int)
    (key : Operator D) : Option (State D × Nat) :=
  match s.currentExprList.findIdx? (slotMatches mem s expressionId steps key) with
  | some j => some (s, j)
  | none =>
    if s.currentExprList.length < exprMaxNum then
      some ({ s with
        currentExprList := s.currentExprList ++
          [{ expressionId := expressionId, op := findOperatorInfo s key,
             stepLens := steps.length, hash := calculateHash steps }] },
        s.currentExprList.length)
    else none

def slotFor (mem : Memory D) (s : State D) (expressionId : Nat) (steps : List Int)
    (key : Operator D) : Option (State D × Nat) :=
  match recordInfo mem s expressionId steps key with
  | none => none
  | some s => takeSlot mem s expressionId steps key

/-- `jit_compile_expr`, up to the `list_index` of the expression: `none` inside when
it has no slot. -/
def jitCompileExpr (mem : Memory D) (s : State D) (plan : Option (PlanNode D)) (steps : List Int) :
    Option (State D × Option Nat) :=
  match addExpression s.table steps with
  | none => none
  | some (table, entry) =>
    let s := { s with table := table, tick := s.tick + 1 }
    match entry, plan with
    | some i, some node =>
      (slotFor mem s (table.exprTypes i).expressionId steps node.key).map fun result =>
        (result.1, some result.2)
    | _, _ => some (s, none)

variable [Zero D]

/-- What an event does in a statement with expressions; the second part is the
`list_index` of an expression that was handed over. -/
def step (mem : Memory D) (s : State D) : Event D → Option (State D × List (Option Nat))
  | .planned stmt =>
    (planQuery stmt s.currentSQLOpts).map fun recs => ({ s with currentSQLOpts := recs }, [])
  | .handed plan steps =>
    (jitCompileExpr mem s plan steps).map fun result => (result.1, [result.2])
  | .counted counts =>
    some ({ s with
      currentSQLExprs := s.currentSQLExprs.mapIdx fun i info => { info with count := counts i } },
      [])
  | .measured node outputRows filteredRows startupTime totalTime =>
    some ({ s with
      currentSQLOpts :=
        match findOperatorInfo s node.key with
        | none => s.currentSQLOpts
        | some p => s.currentSQLOpts.modify p.index fun r =>
          { r with
            actualOutputRows := outputRows
            filteredRows := filteredRows
            actualStartupTime := startupTime
            actualTotalTime := totalTime } }, [])

def run (mem : Memory D) : State D → List (Event D) → Option (State D × List (Option Nat))
  | s, [] => some (s, [])
  | s, e :: rest =>
    match step mem s e with
    | none => none
    | some (s, first) =>
      match run mem s rest with
      | none => none
      | some (s, indices) => some (s, first ++ indices)

/-- `strcasecmp(currentStatement, query) == 0`. -/
def isRepetition (current : Option Text) (query : Text) : Bool :=
  match current with
  | some text => sameIgnoringCase text query
  | none => false

/-- The start of `exec_simple_query`: the records are allocated anew when the
statement has expressions, the entries always, and the slots when the text is new. -/
def beginQuery (s : State D) (query : Text) : State D :=
  { s with
    block := if containExpr query then s.block + 1 else s.block
    currentSQLOpts := if containExpr query then [] else s.currentSQLOpts
    currentSQLExprs := []
    currentStatement := if isRepetition s.currentStatement query then s.currentStatement else some query
    currentExprList := if isRepetition s.currentStatement query then s.currentExprList else [] }

/-- One statement; without expressions nothing of it reaches the registries. -/
def execSimpleQuery (mem : Memory D) (s : State D) (q : Query D) :
    Option (State D × List (Option Nat)) :=
  if containExpr q.text then run mem (beginQuery s q.text) q.events
  else some (beginQuery s q.text, [])

def execQueries (mem : Memory D) : State D → List (Query D) → Option (State D)
  | s, [] => some s
  | s, q :: rest =>
    match execSimpleQuery mem s q with
    | none => none
    | some (s, _) => execQueries mem s rest

def start (table : Table) : State D where
  table := table
  currentStatement := none
  block := 0
  currentSQLOpts := []
  currentSQLExprs := []
  currentExprList := []
  tick := 0

/-! ## Operator records -/

omit [Zero D] in
/-- What `findOperatorInfo` returns: NULL when no record has the key, and a pointer
to one that has it otherwise. -/
lemma findOperatorInfo_cases (s : State D) (key : Operator D) :
    (findOperatorInfo s key = none ∧ key ∉ s.currentSQLOpts.map OperatorInfo.key) ∨
      ∃ i r, findOperatorInfo s key = some ⟨s.block, i⟩ ∧ s.currentSQLOpts[i]? = some r ∧ r.key = key := by
  cases found : s.currentSQLOpts.findIdx? fun r => r.key = key with
  | none =>
    refine .inl ⟨by simp [findOperatorInfo, found], fun member => ?_⟩
    obtain ⟨r, inside, same⟩ := List.mem_map.mp member
    rw [List.findIdx?_eq_none_iff] at found
    simpa [same] using found r inside
  | some i =>
    obtain ⟨bound, same, _⟩ := List.findIdx?_eq_some_iff_getElem.mp found
    exact .inr ⟨i, s.currentSQLOpts[i], by simp [findOperatorInfo, found],
      List.getElem?_eq_getElem bound, by simpa using same⟩

end Session

/-! ## The registries without pointers -/

section View

variable {D : Type}

/-- The registries as `JitRouting` has them: an entry holds what its pointer reads. -/
def view (mem : Memory D) (s : State D) (rest : JitRouting.Statement D) : JitRouting.Statement D :=
  { rest with
    currentSQLOpts := s.currentSQLOpts.map OperatorInfo.key
    currentSQLExprs := s.currentSQLExprs.map fun info =>
      ⟨info.expressionId, info.op.map (deref mem s), info.count, info.hash, info.steps⟩
    currentExprList := s.currentExprList.map fun slot =>
      ⟨slot.expressionId, slot.op.map (deref mem s), slot.stepLens, slot.hash⟩ }

variable [DecidableEq D] (mem : Memory D) (s : State D) (rest : JitRouting.Statement D) (expressionId : Nat) (steps : List Int)
  (key : Operator D)

lemma sameOperator_view (op : Option OpPtr) (invalid : Bool) :
    JitRouting.sameOperator (op.map (deref mem s)) key invalid = sameOperator mem s op key invalid := by
  cases op <;> rfl

lemma findOperatorInfo_view : JitRouting.findOperatorInfo (s.currentSQLOpts.map OperatorInfo.key) key =
    (findOperatorInfo s key).map (deref mem s) := by
  obtain ⟨none, absent⟩ | ⟨i, r, found, inside, same⟩ := findOperatorInfo_cases s key
  · rw [none, Option.map_none, JitRouting.findOperatorInfo, List.find?_eq_none]
    intro op member
    simpa using fun eq : op = key => absent (eq ▸ member)
  · have member : key ∈ s.currentSQLOpts.map OperatorInfo.key :=
      List.mem_map.mpr ⟨r, List.mem_of_getElem? inside, same⟩
    have read : deref mem s ⟨s.block, i⟩ = key := by simp [deref, inside, same]
    rw [found, Option.map_some, read, JitRouting.findOperatorInfo]
    cases hit : List.find? _ _ with
    | none => simpa using List.find?_eq_none.mp hit key member
    | some op => simpa using List.find?_some hit

lemma recordInfo_view : JitRouting.recordInfo (view mem s rest) expressionId steps key =
    (recordInfo mem s expressionId steps key).map (view mem · rest) := by
  have found : ((view mem s rest).currentSQLExprs.any fun info => info.hash = calculateHash steps &&
      info.steps.length = steps.length && JitRouting.sameOperator info.op key (key.type = 0)) =
      s.currentSQLExprs.any (infoMatches mem s steps key) := by
    simp only [view, List.any_map, Function.comp_def, sameOperator_view]
    rfl
  have length : (view mem s rest).currentSQLExprs.length = s.currentSQLExprs.length := List.length_map _
  simp only [JitRouting.recordInfo, found, length, recordInfo]
  split_ifs
  · rfl
  · simp only [view, findOperatorInfo_view mem, Option.map_some, List.map_append]
    rfl
  · rfl

lemma takeSlot_view (cfg : JitRouting.Settings) :
    ∃ rest', JitRouting.takeSlot cfg (view mem s rest) expressionId steps key =
      (takeSlot mem s expressionId steps key).map fun result => (view mem result.1 rest', result.2) := by
  have found : ((view mem s rest).currentExprList.findIdx? fun slot => slot.expressionId = expressionId &&
      slot.hash = calculateHash steps && slot.stepLens = steps.length &&
      JitRouting.sameOperator slot.op key (key.optId = 0 && key.type = 0)) =
      s.currentExprList.findIdx? (slotMatches mem s expressionId steps key) := by
    simp only [view, List.findIdx?_map, Function.comp_def, sameOperator_view]
    rfl
  have length : (view mem s rest).currentExprList.length = s.currentExprList.length := List.length_map _
  simp only [JitRouting.takeSlot, found, length, takeSlot]
  cases s.currentExprList.findIdx? (slotMatches mem s expressionId steps key) with
  | some j => exact ⟨rest, rfl⟩
  | none =>
    refine ⟨{ rest with currentExprJITLevels := if cfg.testME then rest.currentExprJITLevels
      else Function.update rest.currentExprJITLevels s.currentExprList.length 0 }, ?_⟩
    by_cases room : s.currentExprList.length < exprMaxNum
    · simp only [if_pos room, view, findOperatorInfo_view mem, Option.map_some, List.map_append]
      rfl
    · simp only [if_neg room, Option.map_none]

lemma slotFor_view (cfg : JitRouting.Settings) :
    ∃ rest', JitRouting.slotFor cfg (view mem s rest) expressionId steps key =
      (slotFor mem s expressionId steps key).map fun result => (view mem result.1 rest', result.2) := by
  simp only [JitRouting.slotFor, recordInfo_view, slotFor]
  cases recordInfo mem s expressionId steps key with
  | none => exact ⟨rest, rfl⟩
  | some s => exact takeSlot_view mem s rest expressionId steps key cfg

/-- **A call does to the registries what it does in `JitRouting`**, where each entry holds
what its pointer reads at the time. -/
theorem jitCompileExpr_view {cfg : JitRouting.Settings} (on : cfg.enableME = true ∧ cfg.containExpr = true)
    (provider : Bool) (estate : Nat) (plan : Option (PlanNode D)) :
    ∃ rest', (JitRouting.jitCompileExpr cfg provider ⟨s.table, view mem { s with tick := s.tick + 1 } rest⟩
        (some ⟨plan.map PlanNode.key, estate⟩) steps).map (·.backend.statement) =
      (jitCompileExpr mem s plan steps).map fun result => view mem result.1 rest' := by
  simp only [JitRouting.jitCompileExpr, if_pos on, jitCompileExpr]
  cases addExpression s.table steps with
  | none => exact ⟨rest, rfl⟩
  | some added =>
    obtain ⟨table, _ | i⟩ := added
    · exact ⟨rest, rfl⟩
    · cases plan with
      | none => exact ⟨rest, rfl⟩
      | some node =>
        obtain ⟨rest1, slot⟩ := slotFor_view mem { s with table := table, tick := s.tick + 1 } rest
          (table.exprTypes i).expressionId steps node.key cfg
        have same : view mem { s with tick := s.tick + 1 } rest =
            view mem { s with table := table, tick := s.tick + 1 } rest := rfl
        dsimp only [Option.map_some]
        rw [same, slot]
        cases slotFor mem _ _ steps node.key with
        | none => exact ⟨rest, rfl⟩
        | some result =>
          dsimp only [Option.map_some]
          split_ifs
          · exact ⟨rest1, rfl⟩
          · exact ⟨JitRouting.raiseFlags rest1 estate _, rfl⟩

end View

end Hex.Kernel.Session
