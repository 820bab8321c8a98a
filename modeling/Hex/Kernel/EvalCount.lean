/-
# Kernel.EvalCount — how often an expression is evaluated

`ExecReadyExpr` hands an expression to `jit_compile_expr`, which enters it in `currentSQLExprs`;
unless it is compiled, `ExecReadyInterpretedExpr` selects one of fifteen routines for it, and the first
evaluation goes through `ExecInterpExprStillValid`. Each routine begins with the same loop, which
counts the evaluation in the entry with the hash, the length and the operator of the expression
(executor/execExprInterp.c). An entry that is made before `addPlanTree` has recorded the plan node has
no operator, and a later call makes another one.

`execEvalExpr_counts` says that an evaluation is counted once, on whatever path it comes.
**`count_eq_iff`**: an entry has counted all evaluations exactly when each of them was interpreted and
found it.
-/
import Hex.Kernel.JitRouting

namespace Hex.Kernel.EvalCount

open ExprTable JitRouting

/-! ## The routines -/

/-- The routines that `ExecReadyInterpretedExpr` can select. -/
inductive Routine where
  | execInterpExpr
  | execJustInnerVar
  | execJustOuterVar
  | execJustScanVar
  | execJustAssignInnerVar
  | execJustAssignOuterVar
  | execJustAssignScanVar
  | execJustApplyFuncToCase
  | execJustConst
  | execJustInnerVarVirt
  | execJustOuterVarVirt
  | execJustScanVarVirt
  | execJustAssignInnerVarVirt
  | execJustAssignOuterVarVirt
  | execJustAssignScanVarVirt

/-- What `evalfunc` points to. -/
inductive EvalFunc where
  | execInterpExprStillValid
  | routine (r : Routine)
  /-- `ExecRunCompiledExpr`, and the function that it looks up -/
  | compiled

/-- What is read of an expression here; `casetest` says whether its first step has a place for the
test value of a CASE. In a direct-threaded expression an opcode is the address to jump to. -/
structure ExprState (Cost : Type) where
  parent : Option (Parent Cost)
  opcodes : List Int
  casetest : Bool
  interpreterInitialized : Bool
  directThreaded : Bool
  evalfunc : Option EvalFunc
  evalfuncPrivate : Option Routine

/-- The settings, and the dispatch table with the reverse one. -/
structure Server extends Settings where
  countExpr : Bool
  provider : Bool
  label : Int → Int
  opcodeOf : Int → Int
  opcodeOf_label : ∀ opcode, opcodeOf (label opcode) = opcode

section Ready

variable {Cost : Type} (sv : Server)

def execEvalStepOp (e : ExprState Cost) (opcode : Int) : Int :=
  if e.directThreaded then sv.opcodeOf opcode else opcode

def ExprState.steps (e : ExprState Cost) : List Int := e.opcodes.map (execEvalStepOp sv e)

def ExprState.plan (e : ExprState Cost) : Option (Operator Cost) := e.parent.bind Parent.plan

/-- The routine for a very simple expression; the numbers are those of `ExprEvalOp`. -/
def fastPath (e : ExprState Cost) : Option Routine :=
  match e.opcodes with
  | [step0, step1, _] =>
    if step0 = 1 ∧ step1 = 4 then some .execJustInnerVar
    else if step0 = 2 ∧ step1 = 5 then some .execJustOuterVar
    else if step0 = 3 ∧ step1 = 6 then some .execJustScanVar
    else if step0 = 1 ∧ step1 = 11 then some .execJustAssignInnerVar
    else if step0 = 2 ∧ step1 = 12 then some .execJustAssignOuterVar
    else if step0 = 3 ∧ step1 = 13 then some .execJustAssignScanVar
    else if step0 = 44 ∧ step1 = 18 ∧ e.casetest then some .execJustApplyFuncToCase
    else none
  | [step0, _] =>
    if step0 = 16 then some .execJustConst
    else if step0 = 4 then some .execJustInnerVarVirt
    else if step0 = 5 then some .execJustOuterVarVirt
    else if step0 = 6 then some .execJustScanVarVirt
    else if step0 = 11 then some .execJustAssignInnerVarVirt
    else if step0 = 12 then some .execJustAssignOuterVarVirt
    else if step0 = 13 then some .execJustAssignScanVarVirt
    else none
  | _ => none

def execReadyInterpretedExpr (e : ExprState Cost) : ExprState Cost :=
  if e.interpreterInitialized then e
  else
    let e := { e with evalfunc := some .execInterpExprStillValid, interpreterInitialized := true }
    match fastPath e with
    | some r => { e with evalfuncPrivate := some r }
    | none =>
      { e with
        opcodes := e.opcodes.map sv.label
        directThreaded := true
        evalfuncPrivate := some .execInterpExpr }

end Ready

section Routines

variable {Cost : Type} [DecidableEq Cost] (sv : Server)

def counts (steps : List Int) (key : Operator Cost) (info : ExprInfo Cost) : Bool :=
  info.hash = calculateHash steps && info.steps.length = steps.length && info.op = some key

def count (steps : List Int) (key : Operator Cost) : List (ExprInfo Cost) → List (ExprInfo Cost)
  | [] => []
  | info :: rest =>
    if counts steps key info then { info with count := info.count + 1 } :: rest
    else info :: count steps key rest

/-- The beginning of all the routines, without `add_expression` or with it. -/
def countEvaluation (adds : Bool) (b : Backend Cost) (e : ExprState Cost) : Option (Backend Cost) :=
  match sv.enableME && sv.containExpr && sv.countExpr, e.plan with
  | true, some key =>
    match if adds then (addExpression b.table (e.steps sv)).map Prod.fst else some b.table with
    | none => none
    | some table =>
      some { b with
        table := table
        statement.currentSQLExprs := count (e.steps sv) key b.statement.currentSQLExprs }
  | _, _ => some b

def callRoutine (b : Backend Cost) (e : ExprState Cost) : Routine → Option (Backend Cost)
  | .execInterpExpr => countEvaluation sv false b e
  | .execJustInnerVar => countEvaluation sv true b e
  | .execJustOuterVar => countEvaluation sv true b e
  | .execJustScanVar => countEvaluation sv true b e
  | .execJustAssignInnerVar => countEvaluation sv true b e
  | .execJustAssignOuterVar => countEvaluation sv true b e
  | .execJustAssignScanVar => countEvaluation sv true b e
  | .execJustApplyFuncToCase => countEvaluation sv true b e
  | .execJustConst => countEvaluation sv true b e
  | .execJustInnerVarVirt => countEvaluation sv true b e
  | .execJustOuterVarVirt => countEvaluation sv true b e
  | .execJustScanVarVirt => countEvaluation sv true b e
  | .execJustAssignInnerVarVirt => countEvaluation sv true b e
  | .execJustAssignOuterVarVirt => countEvaluation sv true b e
  | .execJustAssignScanVarVirt => countEvaluation sv true b e

/-- `ExecInterpExprStillValid`; `valid` says whether the check finds the columns as they were. -/
def execInterpExprStillValid (valid : Bool) (b : Backend Cost) (e : ExprState Cost) :
    Option (Backend Cost × ExprState Cost) :=
  match valid, e.evalfuncPrivate with
  | true, some r =>
    let e := { e with evalfunc := some (.routine r) }
    (callRoutine sv b e r).map (·, e)
  | _, _ => none

/-- `ExecEvalExpr`, as far as it counts: compiled code does not. -/
def execEvalExpr (valid : Bool) (b : Backend Cost) (e : ExprState Cost) : Option (Backend Cost × ExprState Cost) :=
  match e.evalfunc with
  | none => none
  | some .execInterpExprStillValid => execInterpExprStillValid sv valid b e
  | some (.routine r) => (callRoutine sv b e r).map (·, e)
  | some .compiled => some (b, e)

/-! ## A statement -/

/-- The backend, and the expressions that were made ready. -/
structure Executor (Cost : Type) where
  backend : Backend Cost
  exprs : List (ExprState Cost)

/-- What happens in a statement: plan nodes are recorded, an expression is made ready, and one of those
is evaluated. -/
inductive Event (Cost : Type) where
  | recorded (nodes : List (Operator Cost))
  | ready (parent : Option (Parent Cost)) (steps : List Int) (casetest : Bool)
  | evaluated (i : Nat) (valid : Bool)

def execReadyExpr (x : Executor Cost) (parent : Option (Parent Cost)) (steps : List Int) (casetest : Bool) :
    Option (Executor Cost) :=
  (jitCompileExpr sv.toSettings sv.provider x.backend parent steps).map fun outcome =>
    let e : ExprState Cost := ⟨parent, steps, casetest, false, false, none, none⟩
    let e := match outcome.route with
      | .interpreter => execReadyInterpretedExpr sv e
      | .compiled _ => { e with evalfunc := some .compiled }
    ⟨outcome.backend, x.exprs ++ [e]⟩

def step (x : Executor Cost) : Event Cost → Option (Executor Cost)
  | .recorded nodes =>
    some { x with backend.statement.currentSQLOpts := x.backend.statement.currentSQLOpts ++ nodes }
  | .ready parent steps casetest => execReadyExpr sv x parent steps casetest
  | .evaluated i valid =>
    match x.exprs[i]? with
    | none => none
    | some e => (execEvalExpr sv valid x.backend e).map fun result => ⟨result.1, x.exprs.set i result.2⟩

def run : Executor Cost → List (Event Cost) → Option (Executor Cost)
  | x, [] => some x
  | x, event :: rest => (step sv x event).bind fun x => run x rest

end Routines

/-! ## The evaluations -/

/-- The plan node and the steps of an expression. -/
abbrev Origin (Cost : Type) := Option (Operator Cost) × List Int

section Count

variable {Cost : Type} [DecidableEq Cost] {sv : Server} {steps : List Int} {key : Operator Cost}
  {x x' : Executor Cost} {known : List (Origin Cost)}
  {events : List (Event Cost)} {n : Nat}

def Event.origin : Event Cost → List (Origin Cost)
  | .ready parent steps _ => [(parent.bind Parent.plan, steps)]
  | _ => []

/-- The expression in the operator, as far as the loop can tell. -/
def isFor (steps : List Int) (key : Operator Cost) (origin : Origin Cost) : Bool :=
  calculateHash origin.2 = calculateHash steps && origin.2.length = steps.length && origin.1 = some key

def Event.evaluates (steps : List Int) (key : Operator Cost) (known : List (Origin Cost)) : Event Cost → Bool
  | .evaluated i _ => known[i]?.any (isFor steps key)
  | _ => false

/-- The evaluations of the expression in the operator, when the expressions `known` are ready. -/
def evaluations (steps : List Int) (key : Operator Cost) : List (Origin Cost) → List (Event Cost) → Nat
  | _, [] => 0
  | known, event :: rest => (event.evaluates steps key known).toNat + evaluations steps key (known ++ event.origin) rest

def counted (steps : List Int) (key : Operator Cost) (infos : List (ExprInfo Cost)) : Option Nat :=
  (infos.find? (counts steps key)).map ExprInfo.count

def Executor.infos (x : Executor Cost) : List (ExprInfo Cost) := x.backend.statement.currentSQLExprs

/-- The expression is not compiled. -/
def Interprets (x : Executor Cost) : Event Cost → Prop
  | .evaluated i _ => ∀ e ∈ x.exprs[i]?, e.evalfunc ≠ some .compiled
  | _ => True

/-- Every evaluation is interpreted and finds the entry. -/
def AllFound (sv : Server) (steps : List Int) (key : Operator Cost) :
    List (Origin Cost) → Executor Cost → List (Event Cost) → Prop
  | _, _, [] => True
  | known, x, event :: rest =>
    (event.evaluates steps key known = true → Interprets x event ∧ (counted steps key x.infos).isSome = true) ∧
      ∀ x', step sv x event = some x' → AllFound sv steps key (known ++ event.origin) x' rest

/-! ## One evaluation, one count -/

/-- The loop raises the count of the entry that it looks for. -/
lemma counted_count (steps' : List Int) (key' : Operator Cost) (infos : List (ExprInfo Cost)) :
    counted steps key (count steps' key' infos) =
      (counted steps key infos).map fun n => n + (isFor steps key (some key', steps')).toNat := by
  unfold counted
  induction infos with
  | nil => rfl
  | cons info rest ih =>
    have both (here : counts steps' key' info = true) : isFor steps key (some key', steps') = counts steps key info := by
      simp only [counts, Bool.and_eq_true, decide_eq_true_eq] at here
      simp [isFor, counts, here]
    by_cases here : counts steps' key' info = true
    · have same : counts steps key { info with count := info.count + 1 } = counts steps key info := rfl
      rw [count, if_pos here, both here]
      cases found : counts steps key info <;> simp [same, found, Function.comp_def]
    · rw [count, if_neg here]
      cases found : counts steps key info with
      | true =>
        have other : isFor steps key (some key', steps') = false := by
          by_contra same
          simp only [isFor, counts, Bool.not_eq_false, Bool.and_eq_true, decide_eq_true_eq, Option.some.injEq] at same found here
          exact here ⟨⟨found.1.1.trans same.1.1.symm, found.1.2.trans same.1.2.symm⟩, same.2 ▸ found.2⟩
        simp [found, other]
      | false => simpa [found] using ih

lemma callRoutine_eq (sv : Server) (r : Routine) (b : Backend Cost) (e : ExprState Cost) :
    ∃ adds, callRoutine sv b e r = countEvaluation sv adds b e := by
  cases r with
  | execInterpExpr => exact ⟨false, rfl⟩
  | _ => exact ⟨true, rfl⟩

section On

variable (on : sv.enableME = true ∧ sv.containExpr = true ∧ sv.countExpr = true)
include on

/-- Whatever routine runs an expression with a plan node, its loop runs once. -/
lemma callRoutine_infos {r : Routine} {b b' : Backend Cost} {e : ExprState Cost}
    (called : callRoutine sv b e r = some b') :
    b'.statement.currentSQLExprs = e.plan.elim b.statement.currentSQLExprs fun key =>
      count (e.steps sv) key b.statement.currentSQLExprs := by
  obtain ⟨adds, same⟩ := callRoutine_eq sv r b e
  rw [same, countEvaluation, on.1, on.2.1, on.2.2] at called
  cases plan : e.plan with
  | none =>
    simp only [plan] at called
    cases called
    rfl
  | some key =>
    simp only [plan, Bool.and_self] at called
    split at called
    · cases called
    · cases called
      rfl

/-- **An evaluation that is interpreted runs the loop once**, on whatever path it comes; a compiled one
does not. The expression keeps its steps. -/
theorem execEvalExpr_counts {valid : Bool} {b b' : Backend Cost} {e e' : ExprState Cost}
    (evaluated : execEvalExpr sv valid b e = some (b', e')) :
    e'.plan = e.plan ∧ e'.steps sv = e.steps sv ∧ (e.evalfunc = some .compiled → b' = b) ∧
      (e.evalfunc ≠ some .compiled → b'.statement.currentSQLExprs = e.plan.elim b.statement.currentSQLExprs fun key =>
        count (e.steps sv) key b.statement.currentSQLExprs) := by
  unfold execEvalExpr at evaluated
  split at evaluated
  · cases evaluated
  · rename_i first
    unfold execInterpExprStillValid at evaluated
    split at evaluated
    · rename_i r private_
      obtain ⟨b1, called, ⟨⟩⟩ := Option.map_eq_some_iff.mp evaluated
      exact ⟨rfl, rfl, fun compiled => by simp [first] at compiled, fun _ => callRoutine_infos on called⟩
    · cases evaluated
  · rename_i r later
    obtain ⟨b1, called, ⟨⟩⟩ := Option.map_eq_some_iff.mp evaluated
    exact ⟨rfl, rfl, fun compiled => by simp [later] at compiled, fun _ => callRoutine_infos on called⟩
  · rename_i compiled
    cases evaluated
    exact ⟨rfl, rfl, fun _ => rfl, fun not => absurd compiled not⟩

/-! ## A whole statement -/

omit on in
/-- A call of `jit_compile_expr` makes at most a new entry, which has counted nothing. -/
lemma recordInfo_counted {st st' : Statement Cost} {expressionId : Nat} {key' : Operator Cost} {steps' : List Int}
    (entered : recordInfo st expressionId steps' key' = some st') :
    (counted steps key st'.currentSQLExprs).getD 0 = (counted steps key st.currentSQLExprs).getD 0 := by
  unfold recordInfo at entered
  dsimp only at entered
  split_ifs at entered
  · cases entered
    rfl
  · cases entered
    simp only [counted, List.find?_append]
    cases st.currentSQLExprs.find? (counts steps key) with
    | some info => rfl
    | none =>
      simp only [List.find?_singleton]
      split_ifs <;> rfl

omit on in
lemma takeSlot_infos {cfg : Settings} {st st' : Statement Cost} {expressionId j : Nat} {key' : Operator Cost} {steps' : List Int}
    (taken : takeSlot cfg st expressionId steps' key' = some (st', j)) : st'.currentSQLExprs = st.currentSQLExprs := by
  unfold takeSlot at taken
  dsimp only at taken
  split at taken
  · cases taken
    rfl
  · split_ifs at taken <;> cases taken <;> rfl

omit on in
variable (steps key) in
lemma jitCompileExpr_counted {b : Backend Cost} {parent : Option (Parent Cost)} {steps' : List Int}
    {outcome : Outcome Cost} (called : jitCompileExpr sv.toSettings sv.provider b parent steps' = some outcome) :
    (counted steps key outcome.backend.statement.currentSQLExprs).getD 0 =
      (counted steps key b.statement.currentSQLExprs).getD 0 := by
  unfold jitCompileExpr at called
  split at called
  · cases called
    rfl
  · split_ifs at called
    · split at called
      · cases called
      · split at called
        · cases called
        · rename_i st j slotted
          unfold slotFor at slotted
          split at slotted
          · cases slotted
          · rename_i entered
            rw [← recordInfo_counted entered, ← takeSlot_infos slotted]
            dsimp only at called
            split_ifs at called <;> cases called <;> rfl
      · cases called
        rfl
    · cases called
      rfl

def ExprState.origin (sv : Server) (e : ExprState Cost) : Origin Cost := (e.plan, e.steps sv)

def Executor.origins (sv : Server) (x : Executor Cost) : List (Origin Cost) := x.exprs.map (ExprState.origin sv)

omit on in
lemma execReadyExpr_origins {parent : Option (Parent Cost)} {steps' : List Int} {casetest : Bool}
    (ready : execReadyExpr sv x parent steps' casetest = some x') :
    x'.origins sv = x.origins sv ++ [(parent.bind Parent.plan, steps')] := by
  obtain ⟨outcome, -, rfl⟩ := Option.map_eq_some_iff.mp ready
  unfold Executor.origins
  rw [List.map_append, List.map_singleton]
  refine congrArg (_ ++ [·]) ?_
  cases outcome.route with
  | interpreter =>
    show ExprState.origin sv (execReadyInterpretedExpr sv _) = _
    unfold execReadyInterpretedExpr
    rw [if_neg Bool.false_ne_true]
    dsimp only
    split
    · exact Prod.ext rfl (List.map_id _)
    · -- the opcodes are read back from the labels
      refine Prod.ext rfl ?_
      show (steps'.map sv.label).map sv.opcodeOf = steps'
      simp [sv.opcodeOf_label, Function.comp_def]
  | compiled => exact Prod.ext rfl (List.map_id _)

omit on in
/-- What the loop of an expression finds, by where the expression comes from. -/
lemma counted_elim (e : ExprState Cost) (infos : List (ExprInfo Cost)) :
    counted steps key (e.plan.elim infos fun key' => count (e.steps sv) key' infos) =
      (counted steps key infos).map fun n => n + (isFor steps key (e.origin sv)).toNat := by
  unfold ExprState.origin
  cases e.plan with
  | none =>
    have other : isFor steps key (none, e.steps sv) = false := by simp [isFor]
    simp [other]
  | some key' => exact counted_count (e.steps sv) key' infos

variable (steps key) in
lemma counted_step {event : Event Cost} (stepped : step sv x event = some x') :
    x'.origins sv = x.origins sv ++ event.origin ∧
      (counted steps key x'.infos).getD 0 ≤ (counted steps key x.infos).getD 0 +
        (event.evaluates steps key (x.origins sv)).toNat ∧
      ((counted steps key x'.infos).getD 0 = (counted steps key x.infos).getD 0 +
          (event.evaluates steps key (x.origins sv)).toNat ↔
        (event.evaluates steps key (x.origins sv) = true →
          Interprets x event ∧ (counted steps key x.infos).isSome = true)) := by
  cases event with
  | recorded nodes =>
    cases stepped
    exact ⟨(List.append_nil _).symm, le_rfl, by simp [Event.evaluates, Executor.infos]⟩
  | ready parent steps' casetest =>
    have origins := execReadyExpr_origins stepped
    obtain ⟨outcome, called, rfl⟩ := Option.map_eq_some_iff.mp stepped
    have same := jitCompileExpr_counted steps key called
    exact ⟨origins, same.le, iff_of_true same fun hit => absurd hit Bool.false_ne_true⟩
  | evaluated i valid =>
    rw [step] at stepped
    split at stepped
    · cases stepped
    rename_i e found
    obtain ⟨⟨b', e'⟩, evaluated, rfl⟩ := Option.map_eq_some_iff.mp stepped
    obtain ⟨plan, steps', compiled, interpreted⟩ := execEvalExpr_counts on evaluated
    have hit : (Event.evaluated i valid).evaluates steps key (x.origins sv) = isFor steps key (e.origin sv) := by
      simp [Event.evaluates, Executor.origins, found]
    have origin : e'.origin sv = e.origin sv := Prod.ext plan steps'
    have interprets : Interprets x (.evaluated i valid) ↔ e.evalfunc ≠ some .compiled := by
      simp [Interprets, found]
    constructor
    · obtain ⟨inside, rfl⟩ := List.getElem?_eq_some_iff.mp found
      show (x.exprs.set i e').map _ = _ ++ []
      rw [Executor.origins, List.map_set, origin, ← List.map_set, List.set_getElem_self, List.append_nil]
    rw [hit, interprets]
    by_cases run : e.evalfunc = some .compiled
    · obtain rfl := compiled run
      show (counted steps key x.infos).getD 0 ≤ _ ∧ ((counted steps key x.infos).getD 0 = _ ↔ _)
      cases isFor steps key (e.origin sv) <;> simp [run]
    · have infos : counted steps key (Executor.infos ⟨b', x.exprs.set i e'⟩) =
          (counted steps key x.infos).map fun n => n + (isFor steps key (e.origin sv)).toNat :=
        (congrArg (counted steps key) (interpreted run)).trans (counted_elim e _)
      dsimp only
      rw [infos]
      cases counted steps key x.infos <;> cases isFor steps key (e.origin sv) <;> simp [run]

lemma counted_run (ran : run sv x events = some x') (entry : counted steps key x'.infos = some n) :
    n ≤ (counted steps key x.infos).getD 0 + evaluations steps key (x.origins sv) events ∧
      (n = (counted steps key x.infos).getD 0 + evaluations steps key (x.origins sv) events ↔
        AllFound sv steps key (x.origins sv) x events) := by
  induction events generalizing x with
  | nil =>
    cases ran
    simp [entry, AllFound, evaluations]
  | cons event rest ih =>
    obtain ⟨x1, first, later⟩ := Option.bind_eq_some_iff.mp ran
    obtain ⟨atMost, exactly⟩ := ih later
    obtain ⟨origins, most, here⟩ := counted_step steps key on first
    rw [origins] at atMost exactly
    simp only [AllFound, evaluations, first, Option.some.injEq, forall_eq', ← exactly, ← here]
    omega

/-- **An entry has counted all evaluations of its expression in its operator exactly when each of
them was interpreted and found it**, in a statement that has no entries at first. -/
theorem count_eq_iff (fresh : x.infos = []) (none : x.exprs = []) (ran : run sv x events = some x')
    (entry : counted steps key x'.infos = some n) :
    n = evaluations steps key [] events ↔ AllFound sv steps key [] x events := by
  have counts := (counted_run on ran entry).2
  rwa [fresh, Executor.origins, none, counted, List.find?_nil, Option.map_none, Option.getD_none, Nat.zero_add, List.map_nil] at counts

end On

end Count

/-- A scan below an Append; it is recorded when another query with the same node is planned. -/
def scan : Operator Nat := ⟨1, 10, 0, 5⟩

/-- Labels that are the opcodes, moved. -/
def counting : Server := ⟨⟨true, true, false⟩, true, true, (· + 4096), (· - 4096), fun _ => Int.add_sub_cancel _ _⟩

def started : Executor Nat := ⟨⟨initial fun _ _ => 0, quiet⟩, []⟩

/-- A column of the scan, which `ExecJustScanVar` reads, and a filter, which `ExecInterpExpr` runs. -/
def recordedScan : List (Event Nat) :=
  [.recorded [scan], .ready (some ⟨some scan, 0⟩) [3, 6, 0] false, .ready (some ⟨some scan, 0⟩) [3, 6, 16, 28, 0] false,
    .evaluated 0 true, .evaluated 1 true, .evaluated 1 true]

theorem recordedScan_found : AllFound counting [3, 6, 16, 28, 0] scan [] started recordedScan := by
  have twice : (run counting started recordedScan).map (fun x => counted [3, 6, 16, 28, 0] scan x.infos) =
      some (some 2) := by decide
  obtain ⟨x, ran, entry⟩ := Option.map_eq_some_iff.mp twice
  exact (count_eq_iff ⟨rfl, rfl, rfl⟩ rfl rfl ran entry).mp (by decide)

/-- The first evaluation of two is not counted. -/
theorem lateRecord_count :
    (run counting started [.ready (some ⟨some scan, 0⟩) [3, 6, 0] false, .evaluated 0 true, .recorded [scan],
      .ready (some ⟨some scan, 0⟩) [3, 6, 0] false, .evaluated 1 true]).map
      (fun x => x.infos.map fun info => (info.op, info.count)) = some [(none, 0), (some scan, 1)] := by
  decide

end Hex.Kernel.EvalCount
