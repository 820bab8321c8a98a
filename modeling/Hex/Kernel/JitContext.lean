/-
# Kernel.JitContext — pending modules, emission and lookup

A JIT context (llvmjit.c) collects the functions of compiled expressions in four
modules, one for each JIT level, and emits them when one of the functions is
first called. With `enableME` on (`me_llvm_compile_module`, LLVM newer than 11)
the emission hands `module_jit` and `module_inline` to the LLJIT instance
without optimisation and `module_opt` to the optimising one, and `module` to
none. It appends one handle, which names the instance that was used last.

`llvm_get_function` asks the instances of the handles in order and gives up at
the first that does not know the function: only the first handle of a context is
ever asked.

A session has any number of contexts, whose calls are interleaved. The two LLJIT
instances are the lists of the functions that can be found in them; that is all
the model says about LLVM.
-/
import Mathlib.Logic.Function.Basic
import Mathlib.Tactic.Common
import Mathlib.Tactic.SplitIfs

namespace Hex.Kernel.JitContext

inductive ModuleType where
  | moduleDef
  | moduleJit
  | moduleInline
  | moduleOpt
  deriving DecidableEq, Repr

/-- The two LLJIT instances. -/
inductive Orc where
  | opt0
  | opt3
  deriving DecidableEq, Repr

/-- The name `evalexpr_<generation>_<counter>`. -/
structure FuncName where
  generation : Nat
  counter : Nat
  deriving DecidableEq, Repr

/-- A function in a module: its name, and the expression it was compiled from. -/
structure Func where
  name : FuncName
  code : Nat
  deriving DecidableEq, Repr

/-- A function that can be found in an instance, with the tracker it was added under. -/
structure Symbol where
  function : Func
  tracker : Nat
  deriving DecidableEq, Repr

/-- `LLVMJitHandle`, as `MemoryContextAlloc` leaves it until it is assigned. -/
structure Handle where
  lljit : Option Orc
  resourceTracker : Option Nat
  deriving DecidableEq, Repr

/-- `LLVMJitContext`: `modules` are its four module pointers. -/
structure Context where
  moduleGeneration : Nat
  modules : ModuleType → Option (List Func)
  compiled : Bool
  counter : Nat
  handles : List Handle

/-- A compiled expression: its context, its function and its level. -/
structure Compiled where
  context : Nat
  funcname : FuncName
  level : ModuleType
  deriving DecidableEq, Repr

structure Session where
  llvmGeneration : Nat
  symbols : Orc → List Symbol
  trackers : Nat
  contexts : Nat → Context
  exprs : List Compiled

def Context.zero : Context :=
  { moduleGeneration := 0, modules := fun _ => none, compiled := false, counter := 0, handles := [] }

def Session.initial : Session :=
  { llvmGeneration := 0, symbols := fun _ => [], trackers := 0, contexts := fun _ => .zero,
    exprs := [] }

def Session.setContext (s : Session) (c : Nat) (context : Context) : Session :=
  { s with contexts := Function.update s.contexts c context }

/-! ## Compiling -/

def startBatch (s : Session) (c : Nat) : Session :=
  { s with llvmGeneration := s.llvmGeneration + 1 }.setContext c
    { s.contexts c with compiled := false, moduleGeneration := s.llvmGeneration }

def createModule (s : Session) (c : Nat) (type : ModuleType) : Session :=
  if (s.contexts c).modules type = none then
    s.setContext c { s.contexts c with
      modules := Function.update (s.contexts c).modules type (some []) }
  else s

def llvmMutableModule (s : Session) (c : Nat) : Session :=
  if (s.contexts c).modules .moduleDef = none then createModule (startBatch s c) c .moduleDef
  else s

def llvmMutableModuleSelect (s : Session) (c : Nat) (type : ModuleType) : Session :=
  let modules := (s.contexts c).modules
  let s :=
    if modules .moduleJit = none ∧ modules .moduleInline = none ∧ modules .moduleOpt = none ∧
        modules .moduleDef = none then startBatch s c
    else s
  createModule s c type

def llvmExpandFuncname (s : Session) (c : Nat) : FuncName × Session :=
  ({ generation := (s.contexts c).moduleGeneration, counter := (s.contexts c).counter },
    s.setContext c { s.contexts c with counter := (s.contexts c).counter + 1 })

def addFunction (s : Session) (c : Nat) (type : ModuleType) (f : Func) : Session :=
  s.setContext c { s.contexts c with
    modules := Function.update (s.contexts c).modules type (((s.contexts c).modules type).map (· ++ [f])) }

def llvmCompileExpr (s : Session) (c : Nat) (level : ModuleType) : Session :=
  let s := if level = .moduleDef then llvmMutableModule s c else llvmMutableModuleSelect s c level
  let (funcname, s) := llvmExpandFuncname s c
  let s := addFunction s c level { name := funcname, code := s.exprs.length }
  { s with exprs := s.exprs ++ [{ context := c, funcname := funcname, level := level }] }

/-! ## Emission and lookup -/

/-- Hand a module over to an instance, under a new tracker. -/
def handOver (orc : Orc) (pending : Option (List Func)) :
    Session × Handle → Session × Handle
  | (s, handle) =>
    match pending with
    | none => (s, handle)
    | some functions =>
      ({ s with
          symbols := Function.update s.symbols orc
            (s.symbols orc ++ functions.map fun f => { function := f, tracker := s.trackers })
          trackers := s.trackers + 1 },
        { lljit := some orc, resourceTracker := some s.trackers })

/-- The three modules an emission hands over, and the one handle it fills in. -/
def handOverAll (s : Session) (modules : ModuleType → Option (List Func)) : Session × Handle :=
  handOver .opt3 (modules .moduleOpt) (handOver .opt0 (modules .moduleInline)
      (handOver .opt0 (modules .moduleJit) (s, { lljit := none, resourceTracker := none })))

def meLlvmCompileModule (s : Session) (c : Nat) : Session :=
  let emitted := handOverAll s (s.contexts c).modules
  emitted.1.setContext c { s.contexts c with
    modules := fun _ => none
    compiled := true
    handles := (s.contexts c).handles ++ [emitted.2] }

/-- What a call of `llvm_get_function` comes to. -/
inductive Answer where
  /-- The address of the function compiled from this expression. -/
  | address (code : Nat)
  /-- `failed to look up symbol`. -/
  | lookupFailed
  /-- `failed to JIT`. -/
  | noHandle
  /-- The instance is read from a handle nobody filled in. -/
  | undefined
  deriving DecidableEq, Repr

/-- `LLVMOrcLLJITLookup`. -/
def Session.find (s : Session) (orc : Orc) (funcname : FuncName) : Option Nat :=
  ((s.symbols orc).find? fun symbol => symbol.function.name = funcname).map fun symbol => symbol.function.code

/-- The loop over the handles: a symbol that is found has an address, so that no
second handle is asked. -/
def askHandles (s : Session) (funcname : FuncName) : List Handle → Answer
  | [] => .noHandle
  | handle :: _ =>
    match handle.lljit with
    | none => .undefined
    | some orc =>
      match s.find orc funcname with
      | none => .lookupFailed
      | some code => .address code

/-- The emission `llvm_get_function` starts with. -/
def emitPending (s : Session) (c : Nat) : Session :=
  if (s.contexts c).compiled then s else meLlvmCompileModule s c

def llvmGetFunction (s : Session) (c : Nat) (funcname : FuncName) : Session × Answer :=
  let s := emitPending s c
  (s, askHandles s funcname (s.contexts c).handles)

/-! ## Runs -/

/-- What happens in a session. -/
inductive Op where
  /-- An expression is compiled in a context. -/
  | compile (c : Nat) (level : ModuleType)
  /-- The `k`-th compiled expression is evaluated for the first time. -/
  | evaluate (k : Nat)
  deriving DecidableEq, Repr

def step (s : Session) : Op → Session
  | .compile c level => llvmCompileExpr s c level
  | .evaluate k =>
    match s.exprs[k]? with
    | none => s
    | some e => (llvmGetFunction s e.context e.funcname).1

def run (s : Session) (ops : List Op) : Session := ops.foldl step s

/-- The instance a level's module is handed to. -/
def ModuleType.orc : ModuleType → Option Orc
  | .moduleDef => none
  | .moduleJit => some .opt0
  | .moduleInline => some .opt0
  | .moduleOpt => some .opt3

/-! ## What a compile and an emission do -/

def Context.idle (context : Context) : Bool :=
  (context.modules .moduleJit).isNone && (context.modules .moduleInline).isNone &&
    (context.modules .moduleOpt).isNone && (context.modules .moduleDef).isNone

def Context.fresh (context : Context) (level : ModuleType) : Bool :=
  if level = .moduleDef then (context.modules .moduleDef).isNone else context.idle

/-- The functions that can be found in an instance. -/
def Session.functions (s : Session) (orc : Orc) : List Func := (s.symbols orc).map Symbol.function

section Compile

variable (s : Session) (c : Nat) (level : ModuleType) (fresh : Bool)

/-- The generation of the batch a compile adds to. -/
def generationAs : Nat := if fresh then s.llvmGeneration else (s.contexts c).moduleGeneration

def nameAs : FuncName := { generation := generationAs s c fresh, counter := (s.contexts c).counter }

/-- What follows the choice of the module in `llvm_compile_expr`. -/
def addExpr : Session :=
  let (funcname, s) := llvmExpandFuncname s c
  let s := addFunction s c level { name := funcname, code := s.exprs.length }
  { s with exprs := s.exprs ++ [{ context := c, funcname := funcname, level := level }] }

/-- A new function in module `level` of a context, in a new batch when `fresh`. -/
def compileAs : Session :=
  { s with
    llvmGeneration := if fresh then s.llvmGeneration + 1 else s.llvmGeneration
    contexts := Function.update s.contexts c
      { s.contexts c with
        compiled := if fresh then false else (s.contexts c).compiled
        moduleGeneration := generationAs s c fresh
        counter := (s.contexts c).counter + 1
        modules := Function.update (s.contexts c).modules level (some (((s.contexts c).modules level).getD [] ++
            [{ name := nameAs s c fresh, code := s.exprs.length }])) }
    exprs := s.exprs ++ [{ context := c, funcname := nameAs s c fresh, level := level }] }

lemma addExpr_created : addExpr (createModule (if fresh then startBatch s c else s) c level) c level =
      compileAs s c level fresh := by
  cases fresh <;> cases found : (s.contexts c).modules level <;>
    simp [addExpr, compileAs, createModule, startBatch, Session.setContext, found,
      llvmExpandFuncname, addFunction, nameAs, generationAs]

lemma llvmMutableModule_eq : llvmMutableModule s c =
    createModule (if ((s.contexts c).modules .moduleDef).isNone then startBatch s c else s) c .moduleDef := by
  by_cases none : (s.contexts c).modules .moduleDef = none
  · simp [llvmMutableModule, none]
  · simp [llvmMutableModule, none, createModule]

lemma llvmMutableModuleSelect_eq : llvmMutableModuleSelect s c level =
    createModule (if (s.contexts c).idle then startBatch s c else s) c level := by
  simp only [llvmMutableModuleSelect, Context.idle]
  congr 1
  simp [and_assoc]

lemma llvmCompileExpr_eq : llvmCompileExpr s c level = compileAs s c level ((s.contexts c).fresh level) := by
  rw [← addExpr_created]
  show addExpr (if level = .moduleDef then llvmMutableModule s c
    else llvmMutableModuleSelect s c level) c level = _
  unfold Context.fresh
  by_cases dflt : level = .moduleDef
  · subst dflt
    rw [if_pos rfl, if_pos rfl, llvmMutableModule_eq]
  · rw [if_neg dflt, if_neg dflt, llvmMutableModuleSelect_eq]

variable {s c level fresh}

@[simp] lemma compileAs_functions (orc : Orc) : (compileAs s c level fresh).functions orc = s.functions orc := rfl

lemma compileAs_other {d : Nat} (other : d ≠ c) :
    (compileAs s c level fresh).contexts d = s.contexts d := Function.update_of_ne other _ _

@[simp] lemma compileAs_context : (compileAs s c level fresh).contexts c = { s.contexts c with
    compiled := if fresh then false else (s.contexts c).compiled
    moduleGeneration := generationAs s c fresh
    counter := (s.contexts c).counter + 1
    modules := Function.update (s.contexts c).modules level (some (((s.contexts c).modules level).getD [] ++
        [{ name := nameAs s c fresh, code := s.exprs.length }])) } := Function.update_self _ _ _

lemma compileAs_pending : ((compileAs s c level fresh).contexts c).modules level ≠ none := by
  simp

end Compile

section Emission

variable (s : Session) (c : Nat)

/-- The functions an emission hands to an instance. -/
def Context.pendingFor (context : Context) : Orc → List Func
  | .opt0 => (context.modules .moduleJit).getD [] ++ (context.modules .moduleInline).getD []
  | .opt3 => (context.modules .moduleOpt).getD []

/-- The instance the handle of an emission names, given the modules there are. -/
def handleOrc (pending : ModuleType → Bool) : Option Orc :=
  if pending .moduleOpt then some .opt3
  else if pending .moduleJit || pending .moduleInline then some .opt0
  else none

section HandOver

variable (orc : Orc) (pending : Option (List Func)) (x : Session × Handle)

@[simp] lemma handOver_llvmGeneration : (handOver orc pending x).1.llvmGeneration = x.1.llvmGeneration := by
  cases pending <;> rfl

@[simp] lemma handOver_exprs : (handOver orc pending x).1.exprs = x.1.exprs := by
  cases pending <;> rfl

@[simp] lemma handOver_contexts : (handOver orc pending x).1.contexts = x.1.contexts := by
  cases pending <;> rfl

lemma handOver_functions (other : Orc) : (handOver orc pending x).1.functions other =
    x.1.functions other ++ if other = orc then pending.getD [] else [] := by
  cases pending with
  | none => simp [handOver]
  | some functions =>
    by_cases same : other = orc
    · subst same
      simp [handOver, Session.functions, Function.comp_def]
    · simp [handOver, Session.functions, same]

lemma handOver_lljit : (handOver orc pending x).2.lljit = if pending.isSome then some orc else x.2.lljit := by
  cases pending <;> rfl

end HandOver

/-- **What an emission does.** -/
theorem meLlvmCompileModule_spec : (meLlvmCompileModule s c).llvmGeneration = s.llvmGeneration ∧
    (meLlvmCompileModule s c).exprs = s.exprs ∧
    (∀ orc, (meLlvmCompileModule s c).functions orc = s.functions orc ++ (s.contexts c).pendingFor orc) ∧
    (∀ d, d ≠ c → (meLlvmCompileModule s c).contexts d = s.contexts d) ∧
    ∃ handle, handle.lljit = handleOrc (fun t => ((s.contexts c).modules t).isSome) ∧
      (meLlvmCompileModule s c).contexts c = { s.contexts c with
        modules := fun _ => none
        compiled := true
        handles := (s.contexts c).handles ++ [handle] } := by
  refine ⟨by simp [meLlvmCompileModule, Session.setContext, handOverAll],
    by simp [meLlvmCompileModule, Session.setContext, handOverAll], ?_, ?_, ?_⟩
  · intro orc
    have emitted : (meLlvmCompileModule s c).functions orc =
        (handOverAll s (s.contexts c).modules).1.functions orc := rfl
    simp only [emitted, handOverAll, handOver_functions]
    cases orc <;> simp [Context.pendingFor]
  · intro d ne
    simp [meLlvmCompileModule, Session.setContext, handOverAll, Function.update_of_ne ne]
  · refine ⟨(handOverAll s (s.contexts c).modules).2, ?_, ?_⟩
    · simp only [handOverAll, handOver_lljit, handleOrc]
      split_ifs <;> simp_all
    · simp [meLlvmCompileModule, Session.setContext]

end Emission

end Hex.Kernel.JitContext
