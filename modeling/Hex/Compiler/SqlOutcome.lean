/-
# Compiler.SqlOutcome — compiled scalar expressions have their SQL value

`execInterpExpr_sql` carries `Node.implements` over to the flat programs of
`execInitExprRec`, with their back-patched jumps.
-/
import Hex.Compiler.CorrectNode
import Hex.Compiler.Kept

namespace Hex.Compiler

open Theory.BlockCode

/-- The expression as `ExecInitExprRec` leaves it, with the final `EEOP_DONE`. -/
def SqlExpr.compile (setup : Setup) (e : SqlExpr) : ExprState :=
  (execInitExprRec setup e.toNode .result .makeNode).push .done

/-- What is seen of an evaluation: the value of the result and the calls that were made,
or the error. -/
def answerOf : Outcome Machine Raised → Option (Answer SqlValue)
  | .finished m => some (.value (m.mem .result).sql m.trace)
  | .failed e => some (.raised e)
  | .stuck => none
  | .running => none

lemma compile_steps (setup : Setup) (e : SqlExpr) : (e.compile setup).steps =
      (Code.seq ((gen setup e.toNode { caseval := none, domainval := none } .result).piece 0).code
        (.op .done)).flatten 0 [] := by
  have built := (execInitExprRec_extends setup e.toNode .result .makeNode).steps
  simp only [SqlExpr.compile, ExprState.push, ExprState.exprEvalPushStep, built]
  rfl

lemma compile_stores (setup : Setup) (e : SqlExpr) : (e.compile setup).stores =
      ((gen setup e.toNode { caseval := none, domainval := none } .result).piece 0).stores := by
  exact (execInitExprRec_extends setup e.toNode .result .makeNode).stores

lemma answerOf_computes {w : World} {code : Code Op} {W : Cell → Prop} {m : Machine} {answer : Answer SqlValue}
    (computes : Computes W m answer Through (fun v m' => (m'.mem .result).sql = v) (eval (interpStep w) code m))
    (booleans : answer ≠ .notBoolean) :
    answerOf (execInterpExpr w ((Code.seq code (.op .done)).flatten 0 []) m) = some answer := by
  cases answer with
  | notBoolean => exact absurd rfl booleans
  | raised err =>
    change eval (interpStep w) code m = .fail err at computes
    have failed : eval (interpStep w) (.seq code (.op .done)) m = .fail err := by simp only [eval, computes]
    rw [execInterpExpr, run_of_fail failed]
    rfl
  | value v trace =>
    obtain ⟨m', ran, traced, _, held⟩ := computes
    change eval (interpStep w) code m = .next m' at ran
    have done : eval (interpStep w) (.seq code (.op .done)) m = .done m' := by
      simp only [eval, ran]
      rfl
    rw [execInterpExpr, run_of_done done]
    simp only [answerOf, held, traced]

/-- **The steps that `ExecInitExprRec` emits for a scalar expression evaluate to its SQL
value**, and call the functions that its evaluation calls, in the same order. The
constants that the compiler stored are in memory, and no datum other than 0 and 1 is
used as a boolean. -/
theorem execInterpExpr_sql (w : World) (setup : Setup) (e : SqlExpr) (m : Machine)
    (loaded : Loaded (e.compile setup).stores m) (booleans : e.value w m.slots w.caseValue.sql m.trace ≠ .notBoolean) :
    answerOf (execInterpExpr w (e.compile setup).steps m) = some (e.value w m.slots w.caseValue.sql m.trace) := by
  rw [compile_stores] at loaded
  have constants : Loaded ((gen setup e.toNode .top .result).piece 0).constants m :=
    fun p member => loaded p (Piece.filled _ p member)
  have computes := e.toNode.computes_top (w := w) e.toNode_proper constants ((Source.expr e.toNode).body_relies setup 0)
  rw [Env.top] at computes
  rw [e.toNode_value] at computes
  rw [compile_steps]
  exact answerOf_computes computes booleans

def int4eq : Func where
  funcid := 65
  funcname := "int4eq"
  inputcollid := 0
  executable := true
  fnStrict := true
  fnRetset := false
  fnStats := 2

/-- `CASE x WHEN 7 THEN NULL AND x = 7 ELSE COALESCE(NULL, true) END`, for a column `x`. -/
def caseSample : SqlExpr :=
  let x : SqlExpr := .var { varno := .scan, varattno := 1, vartype := 23 }
  let seven : SqlExpr := .const { value := 7, isnull := false }
  let null : SqlExpr := .const { value := 0, isnull := true }
  .case (some x) false [.mk (.op int4eq [.caseTest, seven]) (.junction .and null (.op int4eq [x, seven]) [])]
    (.coalesce null [.const { value := 1, isnull := false }])

/-- Functions of two arguments compare them. -/
def comparingWorld : World where
  answer _ c := match c with
    | .function _ [some a, some b] => .ok [{ value := boolGetDatum (a == b), isnull := false }]
    | _ => .error "not called"
  caseValue := { value := 0, isnull := true }
  domainValue := { value := 0, isnull := true }
  aggValue _ := { value := 0, isnull := true }

/-- A machine whose slots have the value `d` in every column and whose memory holds 7. -/
def columnMachine (d : NullableDatum) : Machine where
  mem _ := { value := 7, isnull := false }
  slots _ := { nvalid := 2, values := fun _ => d }
  resultslot _ := { value := 0, isnull := true }
  pergroups _ := none
  trace := []

theorem execInterpExpr_sql_case : answerOf (execInterpExpr comparingWorld (caseSample.compile sampleSetup).steps
      (columnMachine { value := 7, isnull := false })) =
    some (.value none [.function int4eq [some 7, some 7], .function int4eq [some 7, some 7]]) :=
  execInterpExpr_sql comparingWorld sampleSetup caseSample (columnMachine { value := 7, isnull := false }) (by
      have sevens : ∀ p ∈ (caseSample.compile sampleSetup).stores, p.2.sql = some 7 := by decide
      exact fun p member => (sevens p member).symm)
    (fun eq => nomatch eq)

end Hex.Compiler
