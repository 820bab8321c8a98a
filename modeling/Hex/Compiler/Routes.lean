/-
# Compiler.Routes — an expression has one value at every level

`jit_compile_expr` leaves a program to the interpreter or has code emitted for it, at one of
the levels. `execEvalExpr` runs the program the way that was chosen. Whatever the way is, it
gives the value of the tree that the program was built for (`execEvalExpr_value`).
-/
import Hex.Compiler.ProgramRun
import Hex.Compiler.SameOutcome
import Hex.Kernel.JitRouting

namespace Hex.Compiler

open Kernel.JitContext (ModuleType)
open Kernel.JitRouting (Route)
open Theory.BlockCode

/-- An LLVM for each level, in which the argument records keep their contents. -/
abbrev Backends := ModuleType → { llvm : Llvm // llvm.Keeps }

/-- `ExecEvalExpr`: `evalfunc` is the interpreter, or the emitted code that `llvm_get_function`
has found. -/
def execEvalExpr (w : World) (llvm : Backends) (steps : List Step) (m : Machine) : Route → Outcome Machine Raised
  | .interpreter => execInterpExpr w steps m
  | .compiled t => runCompiledExpr w (llvm t) steps m

section Routes

variable {w : World} {setup : Setup} (llvm : Backends)

/-- Compiled code answers as the interpreter does. -/
lemma answerOf_execEvalExpr {src : Source} {st : ExprState} (built : src.build setup = some st)
    (wf : src.wellFormed = true) {m : Machine} (typed : Admissible (Op.typed w) (interpStep w) st.steps m) (route : Route) :
    answerOf (execEvalExpr w llvm st.steps m route) = answerOf (execInterpExpr w st.steps m) := by
  cases route with
  | interpreter => rfl
  | compiled t =>
    rw [execEvalExpr]
    rcases (Source.gen_runs (llvm t).2 setup wf).sameOutcome (build_isProgram setup built).steps m typed with
      ⟨_, _, ran, ran', ended⟩ | ⟨_, failed, failed'⟩
    · simp only [ran, ran', answerOf, ended.result, ended.trace]
    · rw [failed, failed']

/-- The value of a tree, on the slots as its program deforms them. -/
def exprValue (w : World) (setup : Setup) (n : Node) (m : Machine) : Answer SqlValue :=
  ((Source.expr n).deform w setup m.slots >>= fun slots => n.value w slots setup (.top w)) m.trace

/-- **An expression gives the value of its tree, whatever its level is**, with the calls of
the evaluation, or the error that the evaluation raises. -/
theorem execEvalExpr_value (route : Route) (n : Node) (m : Machine)
    (wf : n.wellFormed = true) (proper : n.proper = true) (loaded : Loaded (execInitExpr setup n).stores m)
    (typed : Admissible (Op.typed w) (interpStep w) (execInitExpr setup n).steps m)
    (booleans : exprValue w setup n m ≠ .notBoolean) :
    answerOf (execEvalExpr w llvm (execInitExpr setup n).steps m route) = some (exprValue w setup n m) := by
  have built : (Source.expr n).build setup = some (execInitExpr setup n) := rfl
  have outcome : OutcomeOf (fun _ _ => True) m (exprValue w setup n m) (fun v m' => (m'.mem .result).sql = v) _ :=
    execInterpExpr_outcome built fun slots trace => n.computes_top proper
      (Source.loaded_body built loaded slots trace) ((Source.expr n).body_relies setup 0)
  rw [answerOf_execEvalExpr llvm built wf typed]
  generalize exprValue w setup n m = answer at *
  cases answer with
  | value v trace =>
    obtain ⟨m', finished, rfl, _, rfl⟩ := outcome
    rw [finished]
    rfl
  | raised e =>
    change _ = Outcome.failed e at outcome
    rw [outcome]
    rfl
  | notBoolean => exact absurd rfl booleans

end Routes

/-- `NULLIF(x, y) IS NOT NULL` of two columns. -/
def notNullSample : Node :=
  .nullTest false false (.nullIfExpr int4eq [.var { varno := .scan, varattno := 1, vartype := 23 },
    .var { varno := .scan, varattno := 2, vartype := 23 }])

theorem notNull_value : answerOf (execEvalExpr (rankingWorld 0) (fun _ => ⟨keepingLlvm, keepingLlvm_keeps⟩)
    (execInitExpr sampleSetup notNullSample).steps countingMachine (.compiled .moduleOpt)) =
      some (.value (some 1) [.function int4eq [some 1, some 2]]) :=
  execEvalExpr_value _ _ notNullSample countingMachine rfl rfl (List.forall_mem_nil _)
    (admissible_of_not_stopped (by decide +kernel)) (fun never => by cases never)

end Hex.Compiler
