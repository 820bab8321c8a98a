/-
# Kernel.JitModes — pending code and the two settings of `enableME`

With `enableME` on `llvm_get_function` emits by `me_llvm_compile_module`, with `enableME` off by
`llvm_compile_module`; then only `module` is ever in use. Either way names are not given twice,
a context with pending code is marked as not compiled, and a lookup of a function that was compiled
since the last emission leaves no module pending. But `me_llvm_compile_module` hands three modules
to LLJIT and drops `module` (`names_distinct_and_handed_over_iff`).

A level is the `int` that `jit_compile_expr` leaves in the plan node: besides 0 to 3 it
may be any other, which is taken for `module`.
-/
import Hex.Kernel.JitLookup

namespace Hex.Kernel.JitContext

/-- The module `llvm_mutable_module_select` returns for a level. -/
def moduleOf (jitLevel : Int) : ModuleType :=
  if jitLevel = 1 then .moduleJit
  else if jitLevel = 2 then .moduleInline
  else if jitLevel = 3 then .moduleOpt
  else .moduleDef

/-- `llvm_compile_expr`, at any `jit_level`. -/
def llvmCompileExprAt (s : Session) (c : Nat) (jitLevel : Int) : Session :=
  addExpr (if jitLevel = 0 then llvmMutableModule s c
    else llvmMutableModuleSelect s c (moduleOf jitLevel)) c (moduleOf jitLevel)

/-- `llvm_compile_module`; `none` when there is no `module` to hand over. -/
def llvmCompileModule (opt3 : Bool) (s : Session) (c : Nat) : Option Session :=
  match (s.contexts c).modules .moduleDef with
  | none => none
  | some functions =>
    let emitted := handOver (if opt3 then .opt3 else .opt0) (some functions)
      (s, { lljit := none, resourceTracker := none })
    some (emitted.1.setContext c { s.contexts c with
      modules := Function.update (s.contexts c).modules .moduleDef none
      compiled := true
      handles := (s.contexts c).handles ++ [emitted.2] })

/-- `enableME`, and `PGJIT_OPT3` in the flags of each context. -/
structure Mode where
  enableME : Bool
  opt3 : Nat → Bool

/-- The `jit_level` of a plan node: only `jit_compile_expr` with `enableME` on sets it. -/
def Mode.level (mode : Mode) (jitLevel : Int) : Int := if mode.enableME then jitLevel else 0

/-- The emission `llvm_get_function` starts with. -/
def emitPendingIn (mode : Mode) (s : Session) (c : Nat) : Option Session :=
  if (s.contexts c).compiled then some s
  else if mode.enableME then some (meLlvmCompileModule s c)
  else llvmCompileModule (mode.opt3 c) s c

/-- What happens in a session: an expression is compiled in a context, or the `k`-th
compiled expression is looked up. -/
inductive Call where
  | compile (c : Nat) (jitLevel : Int)
  | lookup (k : Nat)
  deriving DecidableEq, Repr

def callStep (mode : Mode) (s : Session) : Call → Option Session
  | .compile c jitLevel => some (llvmCompileExprAt s c (mode.level jitLevel))
  | .lookup k =>
    match s.exprs[k]? with
    | none => some s
    | some e => emitPendingIn mode s e.context

def callRun (mode : Mode) : Session → List Call → Option Session
  | s, [] => some s
  | s, call :: rest => (callStep mode s call).bind fun s => callRun mode s rest

def Context.freshAt (context : Context) (jitLevel : Int) : Bool :=
  if jitLevel = 0 then (context.modules .moduleDef).isNone else context.idle

lemma llvmCompileExprAt_eq (s : Session) (c : Nat) (jitLevel : Int) : llvmCompileExprAt s c jitLevel =
      compileAs s c (moduleOf jitLevel) ((s.contexts c).freshAt jitLevel) := by
  rw [← addExpr_created]
  unfold llvmCompileExprAt Context.freshAt
  by_cases dflt : jitLevel = 0
  · subst dflt
    rw [if_pos rfl, if_pos rfl, llvmMutableModule_eq]
    rfl
  · rw [if_neg dflt, if_neg dflt, llvmMutableModuleSelect_eq]

/-! ## What the calls of a session do -/

/-- A context emits: it gets one more handle, and no module of it is left. -/
structure Emitted (s s' : Session) (c : Nat) : Prop where
  exprs : s'.exprs = s.exprs
  generation : s'.llvmGeneration = s.llvmGeneration
  others : ∀ d, d ≠ c → s'.contexts d = s.contexts d
  counter : (s'.contexts c).counter = (s.contexts c).counter
  none : ∀ t, (s'.contexts c).modules t = none
  compiled : (s'.contexts c).compiled = true
  handle : ∃ handle, (s'.contexts c).handles = (s.contexts c).handles ++ [handle]

lemma emitted_me (s : Session) (c : Nat) : Emitted s (meLlvmCompileModule s c) c := by
  obtain ⟨generation, exprs, _, others, handle, _, context⟩ := meLlvmCompileModule_spec s c
  refine ⟨exprs, generation, others, ?_, fun t => ?_, ?_, handle, ?_⟩ <;> rw [context]

/-- The pending functions of a context can be found in an instance. -/
def HandedOver (s s' : Session) (c : Nat) : Prop :=
  ∀ t functions, (s.contexts c).modules t = some functions → ∀ f ∈ functions, ∃ orc, f ∈ s'.functions orc

lemma handedOver_me_iff {s : Session} {c : Nat} (coherent : Coherent s) :
    HandedOver s (meLlvmCompileModule s c) c ↔ (s.contexts c).modules .moduleDef = none := by
  obtain ⟨_, exprs, functions, _⟩ := meLlvmCompileModule_spec s c
  constructor
  · intro handed
    by_contra pending
    obtain ⟨waiting, module⟩ := Option.ne_none_iff_exists'.mp pending
    obtain ⟨f, member⟩ := List.exists_mem_of_ne_nil waiting fun empty => coherent.filled c _ (empty ▸ module)
    obtain ⟨orc, found⟩ := handed _ _ module f member
    -- an instance has functions of its levels only
    obtain ⟨_, t, logged, level⟩ := coherent.emit.found orc f found
    rw [exprs, coherent.pending c _ _ module f member] at logged
    cases logged
    cases level
  · intro absent t waiting module f member
    have level : ∃ orc, t.orc = some orc := by
      cases t with
      | moduleDef => exact absurd (module.symm.trans absent) nofun
      | moduleJit | moduleInline | moduleOpt => exact ⟨_, rfl⟩
    obtain ⟨orc, level⟩ := level
    refine ⟨orc, ?_⟩
    rw [functions]
    exact List.mem_append_right _ (mem_pendingFor.mpr ⟨t, waiting, level, module, member⟩)

lemma emitted_module (opt3 : Bool) {s : Session} {c : Nat} {functions : List Func}
    (found : (s.contexts c).modules .moduleDef = some functions)
    (single : ∀ t, t ≠ .moduleDef → (s.contexts c).modules t = none) :
    ∃ s', llvmCompileModule opt3 s c = some s' ∧ Emitted s s' c ∧ HandedOver s s' c := by
  unfold llvmCompileModule
  rw [found]
  refine ⟨_, rfl, ⟨rfl, rfl, fun d other => Function.update_of_ne other _ _, ?_, fun t => ?_, ?_,
    ⟨some (if opt3 then .opt3 else .opt0), some s.trackers⟩, ?_⟩, fun t waiting module f member => ?_⟩
  · simp [Session.setContext]
  · by_cases same : t = .moduleDef
    · simp [Session.setContext, same]
    · simp [Session.setContext, same, single t same]
  · simp [Session.setContext]
  · simp [Session.setContext, handOver]
  · by_cases same : t = .moduleDef
    · refine ⟨if opt3 then .opt3 else .opt0, ?_⟩
      rw [same, found] at module
      cases module
      simp [Session.setContext, handOver, Session.functions, Function.comp_def, member]
    · exact absurd (module.symm.trans (single t same)) (Option.some_ne_none _)

structure Tracked (mode : Mode) (s : Session) : Prop extends Kept s where
  /-- A context with a function that is not marked as compiled has pending code. -/
  pending : ∀ (k : Nat) (e : Compiled), s.exprs[k]? = some e →
    (s.contexts e.context).compiled = false → ∃ t, (s.contexts e.context).modules t ≠ none
  /-- With `enableME` off there is only `module`. -/
  single : mode.enableME = false → ∀ (c : Nat) (t : ModuleType), t ≠ .moduleDef → (s.contexts c).modules t = none
  /-- With `enableME` on every function waits or was handed over. -/
  coherent : mode.enableME = true → Coherent s

lemma tracked_initial (mode : Mode) : Tracked mode .initial where
  toKept := kept_initial
  pending k e none := by simp [Session.initial] at none
  single _ _ _ _ := rfl
  coherent _ := coherent_initial

section Calls

variable {mode : Mode} {s s' : Session} {c : Nat}

lemma used_of_not_freshAt {jitLevel : Int} (old : (s.contexts c).freshAt jitLevel = false) :
    ∃ t, (s.contexts c).modules t ≠ none := by
  unfold Context.freshAt at old
  split_ifs at old with dflt
  · exact ⟨.moduleDef, fun none => by simp [none] at old⟩
  · exact used_of_not_idle old

lemma Tracked.compile (tracked : Tracked mode s) (jitLevel : Int) :
    Tracked mode (llvmCompileExprAt s c (mode.level jitLevel)) := by
  rw [llvmCompileExprAt_eq]
  refine ⟨tracked.toKept.compileAs used_of_not_freshAt, fun k e logged waits => ?_, ?_,
    fun on => (tracked.coherent on).compileAs used_of_not_freshAt⟩
  · by_cases same : e.context = c
    · rw [same]
      exact ⟨_, compileAs_pending⟩
    · rw [compileAs_other same] at waits ⊢
      obtain old | ⟨_, rfl⟩ := compileAs_getElem?.mp logged
      · exact tracked.pending k e old waits
      · exact absurd rfl same
  · intro off d t other
    have level : moduleOf (mode.level jitLevel) = .moduleDef := by
      simp [Mode.level, off, moduleOf]
    by_cases same : d = c
    · subst same
      rw [compileAs_context, level]
      exact (Function.update_of_ne other _ _).trans (tracked.single off d t other)
    · rw [compileAs_other same]
      exact tracked.single off d t other

lemma Tracked.emitted (tracked : Tracked mode s) (emitted : Emitted s s' c)
    (coherent : mode.enableME = true → Coherent s') : Tracked mode s' := by
  refine ⟨tracked.toKept.emptied emitted.exprs emitted.generation emitted.others emitted.counter
    emitted.none, fun k e logged waits => ?_, fun off d t other => ?_, coherent⟩
  · rw [emitted.exprs] at logged
    by_cases same : e.context = c
    · rw [same, emitted.compiled] at waits
      cases waits
    · rw [emitted.others _ same] at waits ⊢
      exact tracked.pending k e logged waits
  · by_cases same : d = c
    · rw [same]
      exact emitted.none t
    · rw [emitted.others d same]
      exact tracked.single off d t other

/-- **A lookup in a context with pending code emits it**, but not what waits in `module` with
`enableME` on. -/
theorem Tracked.emits (tracked : Tracked mode s) (pending : ∃ t, (s.contexts c).modules t ≠ none) :
    ∃ s', emitPendingIn mode s c = some s' ∧ Emitted s s' c ∧ Tracked mode s' ∧
      (HandedOver s s' c ↔ mode.enableME = false ∨ (s.contexts c).modules .moduleDef = none) := by
  obtain ⟨t, module⟩ := pending
  have waits := tracked.waiting c t module
  unfold emitPendingIn
  rw [waits]
  cases on : mode.enableME with
  | true =>
    have coherent := tracked.coherent on
    exact ⟨_, rfl, emitted_me s c, tracked.emitted (emitted_me s c) fun _ => coherent.emit,
      by simp [handedOver_me_iff coherent]⟩
  | false =>
    have dflt : t = .moduleDef := by
      by_contra other
      exact module (tracked.single on c t other)
    subst dflt
    obtain ⟨functions, found⟩ := Option.ne_none_iff_exists'.mp module
    obtain ⟨s', emits, emitted, handed⟩ := emitted_module (mode.opt3 c) found (tracked.single on c)
    exact ⟨s', emits, emitted, tracked.emitted emitted (by simp [on]), by simp [handed]⟩

lemma Tracked.lookup (tracked : Tracked mode s) {k : Nat} {e : Compiled} (logged : s.exprs[k]? = some e) :
    ∃ s', emitPendingIn mode s e.context = some s' ∧ Tracked mode s' ∧ (s' = s ∨ Emitted s s' e.context) := by
  cases flag : (s.contexts e.context).compiled with
  | true => exact ⟨s, by simp [emitPendingIn, flag], tracked, .inl rfl⟩
  | false =>
    obtain ⟨s', emits, emitted, tracked', -⟩ := tracked.emits (tracked.pending k e logged flag)
    exact ⟨s', emits, tracked', .inr emitted⟩

/-- What one call does for a context: its handles only become more, and pending code stays
pending while they do not. -/
lemma Tracked.step (tracked : Tracked mode s) (call : Call) : ∃ s', callStep mode s call = some s' ∧ Tracked mode s' ∧
      (s.contexts c).handles.length ≤ (s'.contexts c).handles.length ∧
      ((s'.contexts c).handles.length = (s.contexts c).handles.length →
        (∃ t, (s.contexts c).modules t ≠ none) → ∃ t, (s'.contexts c).modules t ≠ none) := by
  cases call with
  | compile d jitLevel =>
    refine ⟨_, rfl, tracked.compile jitLevel, ?_⟩
    rw [llvmCompileExprAt_eq]
    by_cases same : c = d
    · subst same
      rw [compileAs_context]
      refine ⟨le_rfl, fun _ _ => ⟨moduleOf (mode.level jitLevel), ?_⟩⟩
      simp
    · rw [compileAs_other same]
      exact ⟨le_rfl, fun _ => id⟩
  | lookup k =>
    show ∃ s', (match s.exprs[k]? with
      | none => some s
      | some e => emitPendingIn mode s e.context) = some s' ∧ _
    cases logged : s.exprs[k]? with
    | none => exact ⟨s, rfl, tracked, le_rfl, fun _ => id⟩
    | some e =>
      obtain ⟨s', ran, tracked', rfl | emitted⟩ := tracked.lookup logged
      · exact ⟨s', ran, tracked, le_rfl, fun _ => id⟩
      · refine ⟨s', ran, tracked', ?_⟩
        by_cases same : c = e.context
        · obtain ⟨handle, handles⟩ := emitted.handle
          rw [same, handles, List.length_append, List.length_singleton]
          exact ⟨Nat.le_succ _, fun equal => absurd equal (Nat.succ_ne_self _)⟩
        · rw [emitted.others c same]
          exact ⟨le_rfl, fun _ => id⟩

lemma Tracked.run (tracked : Tracked mode s) (calls : List Call) :
    ∃ s', callRun mode s calls = some s' ∧ Tracked mode s' ∧
      (s.contexts c).handles.length ≤ (s'.contexts c).handles.length ∧
      ((s'.contexts c).handles.length = (s.contexts c).handles.length →
        (∃ t, (s.contexts c).modules t ≠ none) → ∃ t, (s'.contexts c).modules t ≠ none) := by
  induction calls generalizing s with
  | nil => exact ⟨s, rfl, tracked, le_rfl, fun _ => id⟩
  | cons call rest ih =>
    obtain ⟨s₁, first, tracked1, more, stays⟩ := tracked.step (c := c) call
    obtain ⟨s', others, tracked', more', stays'⟩ := ih tracked1
    refine ⟨s', by rw [callRun, first]; exact others, tracked', more.trans more', ?_⟩
    intro equal pending
    have middle : (s₁.contexts c).handles.length = (s.contexts c).handles.length := by omega
    exact stays' (by omega) (stays middle pending)

lemma callRun_append (calls later : List Call) : callRun mode s (calls ++ later) =
    (callRun mode s calls).bind fun s => callRun mode s later := by
  induction calls generalizing s with
  | nil => rfl
  | cons call rest ih =>
    rw [List.cons_append, callRun, callRun, Option.bind_assoc]
    exact congrArg _ (funext fun s => ih)

end Calls

/-- **Names are distinct, and the next lookup emits pending code**: for every order of compiles
at any levels and lookups, with `enableME` on or off. A function was compiled since the last
emission of its context when the context has got no handle since. All that is pending can be found
in an instance behind the lookup exactly if `enableME` is off or nothing waits in `module`. -/
theorem names_distinct_and_handed_over_iff (mode : Mode) (calls : List Call) :
    ∃ s, callRun mode .initial calls = some s ∧ (s.exprs.map fun e => e.funcname.text).Nodup ∧
      (∀ c t, (s.contexts c).modules t ≠ none → (s.contexts c).compiled = false) ∧
      ∀ before c jitLevel later, calls = before ++ .compile c jitLevel :: later →
        ∀ s₁, callRun mode .initial (before ++ [.compile c jitLevel]) = some s₁ →
          (s.contexts c).handles.length = (s₁.contexts c).handles.length →
          ∃ s', emitPendingIn mode s c = some s' ∧ Emitted s s' c ∧
            (HandedOver s s' c ↔ mode.enableME = false ∨ (s.contexts c).modules .moduleDef = none) := by
  obtain ⟨s, ran, tracked, _⟩ := (tracked_initial mode).run (c := 0) calls
  refine ⟨s, ran, tracked.texts_nodup, tracked.waiting, ?_⟩
  rintro before c jitLevel later rfl s₁ ran1 equal
  obtain ⟨s0, ran0, tracked0, _⟩ := (tracked_initial mode).run (c := c) before
  -- the function waits behind its compile, and as long as there is no new handle
  rw [callRun_append, ran0] at ran1
  have compiled : some (llvmCompileExprAt s0 c (mode.level jitLevel)) = some s₁ := ran1
  obtain rfl := Option.some.inj compiled
  have pending : ∃ t, ((llvmCompileExprAt s0 c (mode.level jitLevel)).contexts c).modules t ≠
      none := by
    rw [llvmCompileExprAt_eq]
    exact ⟨_, compileAs_pending⟩
  obtain ⟨s', ran', tracked', _, stays⟩ := (tracked0.compile jitLevel).run (c := c) later
  rw [callRun_append, ran0] at ran
  have same : some s' = some s := ran'.symm.trans ran
  obtain rfl := Option.some.inj same
  obtain ⟨s', emits, emitted, -, handed⟩ := tracked.emits (stays equal pending)
  exact ⟨s', emits, emitted, handed⟩

/-- With `enableME` on, a function of level 0 is dropped by the emission that its lookup starts. -/
theorem default_module_dropped : ∃ s s', callRun ⟨true, fun _ => false⟩ .initial [.compile 0 0] = some s ∧
    s.exprs = [⟨0, ⟨0, 0⟩, .moduleDef⟩] ∧ emitPendingIn ⟨true, fun _ => false⟩ s 0 = some s' ∧ ¬ HandedOver s s' 0 := by
  refine ⟨_, _, rfl, rfl, rfl, fun handed => ?_⟩
  obtain ⟨orc, found⟩ := handed .moduleDef [⟨⟨0, 0⟩, 0⟩] rfl _ List.mem_cons_self
  cases orc <;> cases found

end Hex.Kernel.JitContext
