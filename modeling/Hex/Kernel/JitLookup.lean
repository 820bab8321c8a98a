/-
# Kernel.JitLookup — which lookups of a JIT context succeed

`Coherent` is the invariant of a session: besides what `Kept` says about names and
flags, every function is either in the pending module of its level or was handed
to the instance of its level. Every step keeps it (`coherent_run`).

With it `llvm_get_function` is exact: it returns the function it was asked for
if and only if the first handle of the context names the instance of the
function's level. The first handle is filled in by the first emission of the
context, so that the levels compiled before it decide for the whole life of the
context (`lookups_succeed_iff`).
-/
import Hex.Kernel.JitNames

namespace Hex.Kernel.JitContext

structure Coherent (s : Session) : Prop extends Kept s where
  /-- Modules and instances hold functions of compiled expressions only. -/
  pending : ∀ (c : Nat) (t : ModuleType) (functions : List Func),
    (s.contexts c).modules t = some functions → ∀ f ∈ functions,
      s.exprs[f.code]? = some { context := c, funcname := f.name, level := t }
  found : ∀ (orc : Orc), ∀ f ∈ s.functions orc, ∃ c t,
    s.exprs[f.code]? = some { context := c, funcname := f.name, level := t } ∧ t.orc = some orc
  /-- Every function waits in its module or was handed over. -/
  placed : ∀ (k : Nat) (e : Compiled), s.exprs[k]? = some e →
    (∃ functions, (s.contexts e.context).modules e.level = some functions ∧
      { name := e.funcname, code := k } ∈ functions) ∨
    ∀ orc, e.level.orc = some orc → { name := e.funcname, code := k } ∈ s.functions orc

lemma coherent_initial : Coherent .initial := by
  refine ⟨kept_initial, ?_, ?_, ?_⟩ <;> simp [Session.initial, Context.zero, Session.functions]

section Compile

variable {s : Session} {c : Nat} {level : ModuleType} {fresh : Bool}

/-- **Compiling an expression keeps the invariant**, when it starts a new batch or adds to a
pending one. -/
theorem Coherent.compileAs (coherent : Coherent s) (used : fresh = false → ∃ t, (s.contexts c).modules t ≠ none) :
    Coherent (compileAs s c level fresh) := by
  refine ⟨coherent.toKept.compileAs used, ?_, ?_, ?_⟩
  · intro d t functions module f member
    apply compileAs_getElem?.mpr
    by_cases same : d = c
    · subst same
      rw [compileAs_context] at module
      dsimp only at module
      by_cases here : t = level
      · subst here
        rw [Function.update_self, Option.some.injEq] at module
        subst module
        rcases List.mem_append.mp member with old | new
        · cases before : (s.contexts d).modules t with
          | none => simp [before] at old
          | some functions =>
            exact .inl (coherent.pending d t functions before f (by simpa [before] using old))
        · rw [List.mem_singleton.mp new]
          exact .inr ⟨rfl, rfl⟩
      · rw [Function.update_of_ne here] at module
        exact .inl (coherent.pending d t functions module f member)
    · rw [compileAs_other same] at module
      exact .inl (coherent.pending d t functions module f member)
  · intro orc f member
    obtain ⟨d, t, old, level⟩ := coherent.found orc f member
    exact ⟨d, t, compileAs_getElem?.mpr (.inl old), level⟩
  · intro k e logged
    rcases compileAs_getElem?.mp logged with old | ⟨rfl, rfl⟩
    · rcases coherent.placed k e old with ⟨functions, module, member⟩ | handed
      · left
        by_cases same : e.context = c
        · rw [same] at module ⊢
          rw [compileAs_context]
          by_cases here : e.level = level
          · rw [here] at module ⊢
            exact ⟨_, Function.update_self _ _ _, by simp [module, member]⟩
          · exact ⟨functions, (Function.update_of_ne here _ _).trans module, member⟩
        · rw [compileAs_other same]
          exact ⟨functions, module, member⟩
      · exact .inr handed
    · left
      rw [compileAs_context]
      exact ⟨_, Function.update_self _ _ _, List.mem_append_right _ (List.mem_singleton.mpr rfl)⟩

/-- A compile that starts no new batch adds to one that is pending. -/
lemma used_of_not_fresh (old : (s.contexts c).fresh level = false) : ∃ t, (s.contexts c).modules t ≠ none := by
  simp only [Context.fresh] at old
  split_ifs at old with dflt
  · exact ⟨.moduleDef, fun none => by simp [none] at old⟩
  · exact used_of_not_idle old

end Compile

section Emit

variable {s : Session} {c : Nat}

lemma mem_pendingFor {context : Context} {orc : Orc} {f : Func} :
    f ∈ context.pendingFor orc ↔ ∃ t functions, t.orc = some orc ∧
      context.modules t = some functions ∧ f ∈ functions := by
  have mem : ∀ t, f ∈ (context.modules t).getD [] ↔
      ∃ functions, context.modules t = some functions ∧ f ∈ functions := by
    intro t
    cases context.modules t <;> simp
  cases orc with
  | opt0 =>
    simp only [Context.pendingFor, List.mem_append, mem]
    constructor
    · rintro (⟨functions, h⟩ | ⟨functions, h⟩)
      · exact ⟨.moduleJit, functions, rfl, h⟩
      · exact ⟨.moduleInline, functions, rfl, h⟩
    · rintro ⟨t, functions, level, h⟩
      cases t with
      | moduleDef | moduleOpt => cases level
      | moduleJit => exact .inl ⟨functions, h⟩
      | moduleInline => exact .inr ⟨functions, h⟩
  | opt3 =>
    simp only [Context.pendingFor, mem]
    constructor
    · rintro ⟨functions, h⟩
      exact ⟨.moduleOpt, functions, rfl, h⟩
    · rintro ⟨t, functions, level, h⟩
      cases t with
      | moduleOpt => exact ⟨functions, h⟩
      | moduleDef | moduleJit | moduleInline => cases level

/-- **Emitting the pending code of a context keeps the invariant.** -/
theorem Coherent.emit (coherent : Coherent s) : Coherent (meLlvmCompileModule s c) := by
  obtain ⟨generation, exprs, functions, others, handle, _, context⟩ := meLlvmCompileModule_spec s c
  have none : ∀ t, ((meLlvmCompileModule s c).contexts c).modules t = none := by
    intro t
    rw [context]
  have kept := coherent.toKept.emptied exprs generation others (by rw [context]) none
  refine ⟨kept, ?_, ?_, ?_⟩
  · intro d t pending module
    by_cases same : d = c
    · rw [same, none t] at module
      cases module
    · rw [others d same] at module
      rw [exprs]
      exact coherent.pending d t pending module
  · intro orc f member
    rw [functions] at member
    rw [exprs]
    rcases List.mem_append.mp member with old | new
    · exact coherent.found orc f old
    · obtain ⟨t, pending, level, module, inside⟩ := mem_pendingFor.mp new
      exact ⟨c, t, coherent.pending c t pending module f inside, level⟩
  · intro k e logged
    rw [exprs] at logged
    rcases coherent.placed k e logged with ⟨pending, module, member⟩ | handed
    · by_cases same : e.context = c
      · right
        intro orc level
        rw [functions]
        rw [same] at module
        exact List.mem_append_right _ (mem_pendingFor.mpr ⟨e.level, pending, level, module, member⟩)
      · left
        rw [others _ same]
        exact ⟨pending, module, member⟩
    · right
      intro orc level
      rw [functions]
      exact List.mem_append_left _ (handed orc level)

lemma Coherent.emitted (coherent : Coherent s) : Coherent (emitPending s c) := by
  unfold emitPending
  split_ifs
  · exact coherent
  · exact coherent.emit

lemma Coherent.next (coherent : Coherent s) (op : Op) : Coherent (step s op) := by
  cases op with
  | compile c level =>
    rw [step, llvmCompileExpr_eq]
    exact coherent.compileAs used_of_not_fresh
  | evaluate k =>
    simp only [step]
    cases s.exprs[k]? with
    | none => exact coherent
    | some e => exact coherent.emitted

lemma coherent_run (ops : List Op) : ∀ {s : Session}, Coherent s → Coherent (run s ops) := by
  induction ops with
  | nil => exact id
  | cons op rest ih => exact fun coherent => ih (coherent.next op)

end Emit

/-! ## Lookups -/

section Lookup

variable {s : Session} {c : Nat}

lemma emitPending_done (coherent : Coherent s) (t : ModuleType) :
    ((emitPending s c).contexts c).modules t = none := by
  unfold emitPending
  split_ifs with done
  · by_contra module
    have := coherent.waiting c t module
    rw [done] at this
    cases this
  · obtain ⟨_, _, _, _, _, _, context⟩ := meLlvmCompileModule_spec s c
    rw [context]

lemma emitPending_exprs : (emitPending s c).exprs = s.exprs := by
  unfold emitPending
  split_ifs
  · rfl
  · exact (meLlvmCompileModule_spec s c).2.1

lemma Coherent.find_eq (coherent : Coherent s) {k : Nat} {e : Compiled}
    (logged : s.exprs[k]? = some e) (orc : Orc) : s.find orc e.funcname =
      if { name := e.funcname, code := k } ∈ s.functions orc then some k else none := by
  have symbols : ∀ code, (∃ symbol ∈ s.symbols orc, symbol.function.name = e.funcname ∧
      symbol.function.code = code) → code = k := by
    rintro code ⟨symbol, member, name, rfl⟩
    obtain ⟨d, t, there, _⟩ := coherent.found orc symbol.function (List.mem_map.mpr ⟨_, member, rfl⟩)
    exact coherent.names _ _ _ _ there logged name
  unfold Session.find
  cases result : (s.symbols orc).find? fun symbol => symbol.function.name = e.funcname with
  | none =>
    rw [if_neg]
    · rfl
    · intro member
      obtain ⟨symbol, inside, eq⟩ := List.mem_map.mp member
      have := List.find?_eq_none.mp result symbol inside
      simp [eq] at this
  | some symbol =>
    have name : symbol.function.name = e.funcname := by
      simpa using List.find?_some result
    have inside := List.mem_of_find?_eq_some result
    have code := symbols _ ⟨symbol, inside, name, rfl⟩
    have eq : symbol.function = { name := e.funcname, code := k } := by
      rw [← name, ← code]
    have member : { name := e.funcname, code := k } ∈ s.functions orc :=
      List.mem_map.mpr ⟨symbol, inside, eq⟩
    rw [if_pos member]
    exact congrArg some code

/-- After the emission of its context a function is found in the instance of its
level and in no other. -/
lemma Coherent.find_emitted (coherent : Coherent s) {k : Nat} {e : Compiled}
    (logged : s.exprs[k]? = some e) (done : ∀ t, (s.contexts e.context).modules t = none)
    (orc : Orc) : s.find orc e.funcname = if e.level.orc = some orc then some k else none := by
  rw [coherent.find_eq logged]
  have iff : ({ name := e.funcname, code := k } ∈ s.functions orc) ↔ e.level.orc = some orc := by
    constructor
    · intro member
      obtain ⟨d, t, there, level⟩ := coherent.found orc _ member
      rw [logged] at there
      rw [congrArg Compiled.level (Option.some.inj there)]
      exact level
    · intro level
      rcases coherent.placed k e logged with ⟨functions, module, _⟩ | handed
      · rw [done] at module
        cases module
      · exact handed orc level
  simp only [iff]

/-- **What `llvm_get_function` answers**, by the first handle of the context. -/
theorem Coherent.answer (coherent : Coherent s) {k : Nat} {e : Compiled} (logged : s.exprs[k]? = some e) :
    (llvmGetFunction s e.context e.funcname).2 = .address k ↔ ∃ orc, e.level.orc = some orc ∧
        (((emitPending s e.context).contexts e.context).handles.head?.bind Handle.lljit) = some orc := by
  have after : Coherent (emitPending s e.context) := coherent.emitted
  have found := after.find_emitted (k := k) (e := e) (by rwa [emitPending_exprs]) (emitPending_done coherent)
  simp only [llvmGetFunction]
  cases ((emitPending s e.context).contexts e.context).handles with
  | nil => simp [askHandles]
  | cons handle rest =>
    cases filled : handle.lljit with
    | none => simp [askHandles, filled]
    | some orc =>
      simp only [askHandles, filled, found, List.head?_cons, Option.bind_some,
        Option.some.injEq]
      by_cases level : e.level.orc = some orc
      · simp [level]
      · simp only [level, if_false, reduceCtorEq, false_iff]
        rintro ⟨other, eq, rfl⟩
        exact level eq

end Lookup

/-! ## The first handle of a context -/

/-- The contexts and levels of the compiled expressions, in order. -/
def compiles : List Op → List (Nat × ModuleType)
  | [] => []
  | .compile c level :: rest => (c, level) :: compiles rest
  | .evaluate _ :: rest => compiles rest

/-- The levels compiled in context `c` before an expression of it is first
evaluated; `known` are the expressions compiled before. -/
def firstLevels (c : Nat) (known : List (Nat × ModuleType)) : List Op → List ModuleType
  | [] => []
  | .compile d level :: rest =>
    (if d = c then [level] else []) ++ firstLevels c (known ++ [(d, level)]) rest
  | .evaluate k :: rest =>
    if known[k]?.any (fun known => known.1 = c) then [] else firstLevels c known rest

def Session.known (s : Session) : List (Nat × ModuleType) :=
  s.exprs.map fun e => (e.context, e.level)

/-- The instance named by the first handle of a context, when `levels` are still
to be compiled in it before its first emission. -/
def firstOrc (s : Session) (c : Nat) (levels : List ModuleType) : Option Orc :=
  match (s.contexts c).handles with
  | [] => handleOrc fun t => ((s.contexts c).modules t).isSome || decide (t ∈ levels)
  | handle :: _ => handle.lljit

/-- A context without a handle is not marked as compiled. -/
def Unemitted (s : Session) : Prop :=
  ∀ c, (s.contexts c).handles = [] → (s.contexts c).compiled = false

section First

variable {s : Session} {c : Nat}

lemma emitPending_other {d : Nat} (ne : c ≠ d) : (emitPending s d).contexts c = s.contexts c := by
  unfold emitPending
  split_ifs
  · rfl
  · exact (meLlvmCompileModule_spec s d).2.2.2.1 c ne

lemma emitPending_first (unemitted : Unemitted s) (levels : List ModuleType) :
    firstOrc (emitPending s c) c levels = firstOrc s c [] ∧
      ((emitPending s c).contexts c).handles.head?.bind Handle.lljit = firstOrc s c [] := by
  unfold emitPending
  split_ifs with done
  · have some : (s.contexts c).handles ≠ [] := by
      intro none
      have := unemitted c none
      rw [done] at this
      cases this
    unfold firstOrc
    cases handles : (s.contexts c).handles with
    | nil => exact absurd handles some
    | cons handle rest => exact ⟨rfl, rfl⟩
  · obtain ⟨_, _, _, _, handle, lljit, context⟩ := meLlvmCompileModule_spec s c
    unfold firstOrc
    rw [context]
    cases handles : (s.contexts c).handles with
    | nil => simp [lljit]
    | cons handle rest => exact ⟨rfl, rfl⟩

lemma Unemitted.next (unemitted : Unemitted s) (op : Op) : Unemitted (step s op) := by
  intro c none
  cases op with
  | compile d level =>
    by_cases same : c = d
    · subst same
      simp only [step, llvmCompileExpr_eq, compileAs_context] at none ⊢
      split_ifs
      · rfl
      · exact unemitted c none
    · simp only [step, llvmCompileExpr_eq, compileAs_other same] at none ⊢
      exact unemitted c none
  | evaluate k =>
    simp only [step] at none ⊢
    cases logged : s.exprs[k]? with
    | none =>
      simp only [logged] at none
      exact unemitted c none
    | some e =>
      simp only [logged, llvmGetFunction] at none ⊢
      by_cases same : c = e.context
      · subst same
        unfold emitPending at none ⊢
        split_ifs at none ⊢ with done
        · exact unemitted _ none
        · obtain ⟨_, _, _, _, handle, _, context⟩ := meLlvmCompileModule_spec s e.context
          rw [context] at none
          simp at none
      · rw [emitPending_other same] at none ⊢
        exact unemitted c none

lemma firstOrc_step (unemitted : Unemitted s) (op : Op) (rest : List Op) :
    firstOrc s c (firstLevels c s.known (op :: rest)) =
      firstOrc (step s op) c (firstLevels c (step s op).known rest) := by
  cases op with
  | compile d level =>
    have known : (compileAs s d level ((s.contexts d).fresh level)).known = s.known ++ [(d, level)] := by
      simp [Session.known, compileAs]
    simp only [step, llvmCompileExpr_eq, firstLevels, known]
    generalize firstLevels c (s.known ++ [(d, level)]) rest = later
    by_cases same : c = d
    · subst same
      unfold firstOrc
      rw [compileAs_context]
      cases handles : (s.contexts c).handles with
      | nil =>
        dsimp only
        congr 1
        funext t
        by_cases here : t = level
        · subst here
          simp
        · simp [here]
      | cons handle others => rfl
    · simp only [Ne.symm same, if_false, List.nil_append]
      unfold firstOrc
      rw [compileAs_other same]
  | evaluate k =>
    simp only [step, firstLevels]
    cases logged : s.exprs[k]? with
    | none => simp [Session.known, logged]
    | some e =>
      simp only [llvmGetFunction, Session.known, emitPending_exprs, List.getElem?_map, logged,
        Option.map_some, Option.any_some, decide_eq_true_eq]
      by_cases same : e.context = c
      · subst same
        rw [if_pos rfl, (emitPending_first unemitted _).1]
      · rw [if_neg same]
        unfold firstOrc
        rw [emitPending_other (Ne.symm same)]

lemma firstOrc_run (ops rest : List Op) (unemitted : Unemitted s) :
    Unemitted (run s ops) ∧ firstOrc s c (firstLevels c s.known (ops ++ rest)) =
      firstOrc (run s ops) c (firstLevels c (run s ops).known rest) := by
  induction ops generalizing s with
  | nil => exact ⟨unemitted, rfl⟩
  | cons op ops ih =>
    obtain ⟨final, eq⟩ := ih (unemitted.next op)
    exact ⟨final, (firstOrc_step unemitted op (ops ++ rest)).trans eq⟩

lemma known_run (ops : List Op) : (run s ops).known = s.known ++ compiles ops := by
  induction ops generalizing s with
  | nil => simp [run, compiles]
  | cons op ops ih =>
    have rest := ih (s := step s op)
    rw [show run s (op :: ops) = run (step s op) ops from rfl, rest]
    cases op with
    | compile d level => simp [step, llvmCompileExpr_eq, compileAs, Session.known, compiles]
    | evaluate k =>
      have same : (step s (.evaluate k)).known = s.known := by
        simp only [step]
        cases s.exprs[k]? with
        | none => rfl
        | some e => simp [llvmGetFunction, Session.known, emitPending_exprs]
      simp [same, compiles]

end First

/-- **Which contexts answer every lookup.** All functions that are ever asked for
must be of levels that go to one instance, and it must be the instance of the
highest level compiled in the context before its first lookup. -/
theorem lookups_succeed_iff (c : Nat) (ops : List Op) :
    (∀ (before : List Op) (k : Nat) (after : List Op), ops = before ++ .evaluate k :: after →
      ∀ e, (run .initial before).exprs[k]? = some e → e.context = c →
        (llvmGetFunction (run .initial before) c e.funcname).2 = .address k) ↔
    ∀ (before : List Op) (k : Nat) (after : List Op), ops = before ++ .evaluate k :: after →
      ∀ level, (compiles before)[k]? = some (c, level) → ∃ orc, level.orc = some orc ∧
          handleOrc (fun t => decide (t ∈ firstLevels c [] ops)) = some orc := by
  have unemitted : Unemitted .initial := fun _ _ => rfl
  -- every lookup of the context asks the instance its first batch decides on
  have answer : ∀ (before : List Op) (k : Nat) (after : List Op) (e : Compiled),
      ops = before ++ .evaluate k :: after → (run .initial before).exprs[k]? = some e →
      e.context = c → ((llvmGetFunction (run .initial before) c e.funcname).2 = .address k ↔
        ∃ orc, e.level.orc = some orc ∧ handleOrc (fun t => decide (t ∈ firstLevels c [] ops)) = some orc) := by
    rintro before k after e rfl logged rfl
    obtain ⟨unemitted', eq⟩ := firstOrc_run (c := e.context) before (.evaluate k :: after) unemitted
    have first : firstOrc .initial e.context
        (firstLevels e.context Session.initial.known (before ++ .evaluate k :: after)) =
        handleOrc (fun t => decide (t ∈ firstLevels e.context [] (before ++ .evaluate k :: after))) := by
      simp [firstOrc, Session.initial, Context.zero, Session.known]
    have asked : firstLevels e.context (run .initial before).known (.evaluate k :: after) = [] := by
      simp [firstLevels, Session.known, logged]
    rw [(coherent_run before coherent_initial).answer logged,
      (emitPending_first unemitted' []).2, ← first, eq, asked]
  have known : ∀ before : List Op, compiles before = (run .initial before).known := by
    intro before
    rw [known_run]
    rfl
  constructor
  · intro succeed before k after split level compiled
    rw [known, Session.known, List.getElem?_map] at compiled
    obtain ⟨e, logged, eq⟩ := Option.map_eq_some_iff.mp compiled
    cases eq
    exact (answer before k after e split logged rfl).mp (succeed before k after split e logged rfl)
  · intro served before k after split e logged context
    refine (answer before k after e split logged context).mpr (served before k after split e.level ?_)
    rw [known, Session.known, List.getElem?_map, logged, ← context]
    rfl

/-- A level 1 and a level 3 expression in one batch: the handle names the
optimising instance, which does not know the first. A level 0 expression alone
leaves the handle unassigned. -/
theorem lookup_fails : (run .initial [.compile 0 .moduleJit, .compile 0 .moduleOpt]).exprs.map Compiled.funcname =
      [⟨0, 0⟩, ⟨0, 1⟩] ∧
    (llvmGetFunction (run .initial [.compile 0 .moduleJit, .compile 0 .moduleOpt]) 0 ⟨0, 0⟩).2 = .lookupFailed ∧
    (run .initial [.compile 0 .moduleDef]).exprs.map Compiled.funcname = [⟨0, 0⟩] ∧
    (llvmGetFunction (run .initial [.compile 0 .moduleDef]) 0 ⟨0, 0⟩).2 = .undefined := by
  decide

end Hex.Kernel.JitContext
