/-
# Kernel.JitRelease — what a released JIT context leaves behind

A context owns the modules it creates until it hands them to an LLJIT instance or
disposes of them, and the resource trackers it creates until it removes and releases
them. `Resources` is a context with its modules and trackers told apart by a number, and
with what LLVM is told about them; it follows llvmjit.c with `enableME` on and LLVM newer
than 11, and the context of `JitContext` (`Matches.useAll`).

Four things go wrong:

* an emission drops `module` without handing it over;
* it creates a tracker for each module it hands over and keeps the last one only;
* when there was nothing to hand over, its handle is never filled in;
* `llvm_release_context` disposes of `module_opt` but sets `module` to NULL.

`release_balanced_iff` says that nothing else does.
-/
import Hex.Kernel.JitModes
import Hex.Theory.Ownership
import Mathlib.Data.List.ReduceOption

namespace Hex.Kernel.JitContext

open Theory.Ownership

/-- The resources of a context. A handle is its tracker: none as long as nobody assigns it.
The lists are what LLVM is told, in order. -/
structure Resources where
  modules : ModuleType → Option Nat
  compiled : Bool
  counter : Nat
  handles : List (Option Nat)
  modulesCreated : Nat
  trackersCreated : Nat
  handedOver : List Nat
  disposed : List Nat
  removed : List Nat
  released : List Nat

namespace Resources

def zero : Resources :=
  { modules := fun _ => none, compiled := false, counter := 0, handles := [], modulesCreated := 0,
    trackersCreated := 0, handedOver := [], disposed := [], removed := [], released := [] }

/-! ## Compiling, emitting and releasing -/

def createModule (r : Resources) (type : ModuleType) : Resources :=
  if r.modules type = none then
    { r with
      modules := Function.update r.modules type (some r.modulesCreated)
      modulesCreated := r.modulesCreated + 1 }
  else r

def llvmMutableModule (r : Resources) : Resources :=
  if r.modules .moduleDef = none then createModule { r with compiled := false } .moduleDef else r

def llvmMutableModuleSelect (r : Resources) (type : ModuleType) : Resources :=
  let r :=
    if r.modules .moduleJit = none ∧ r.modules .moduleInline = none ∧ r.modules .moduleOpt = none ∧
        r.modules .moduleDef = none then { r with compiled := false }
    else r
  createModule r type

def llvmCompileExpr (r : Resources) (jitLevel : Int) : Resources :=
  let r :=
    if jitLevel = 0 then llvmMutableModule r else llvmMutableModuleSelect r (moduleOf jitLevel)
  { r with counter := r.counter + 1 }

/-- Hand a module to LLJIT under a new tracker; the second part is the one in the handle. -/
def handOverModule (type : ModuleType) : Resources × Option Nat → Resources × Option Nat
  | (r, tracker) =>
    match r.modules type with
    | none => (r, tracker)
    | some m =>
      ({ r with
          modules := Function.update r.modules type none
          trackersCreated := r.trackersCreated + 1
          handedOver := r.handedOver ++ [m] },
        some r.trackersCreated)

def meLlvmCompileModule (r : Resources) : Resources :=
  let emitted := handOverModule .moduleOpt (handOverModule .moduleInline (handOverModule .moduleJit (r, none)))
  { emitted.1 with
    modules := fun _ => none
    compiled := true
    handles := emitted.1.handles ++ [emitted.2] }

def llvmGetFunction (r : Resources) : Resources :=
  if r.counter = 0 ∨ r.compiled = true then r else meLlvmCompileModule r

def disposeModule (type nulled : ModuleType) (r : Resources) : Resources :=
  match r.modules type with
  | none => r
  | some m =>
    { r with disposed := r.disposed ++ [m], modules := Function.update r.modules nulled none }

/-- The loop over the handles; `none` when it reads a tracker that nobody assigned. -/
def releaseHandle (r : Resources) (tracker : Option Nat) : Option Resources :=
  tracker.map fun k => { r with removed := r.removed ++ [k], released := r.released ++ [k] }

/-- `llvm_release_context`, outside process exit. -/
def llvmReleaseContext (r : Resources) : Option Resources :=
  let r := disposeModule .moduleOpt .moduleDef r
  let r := disposeModule .moduleJit .moduleJit r
  let r := disposeModule .moduleInline .moduleInline r
  let r := disposeModule .moduleDef .moduleDef r
  (r.handles.foldlM releaseHandle r).map fun r => { r with handles := [] }

end Resources

/-- What a context is used for. -/
inductive Use where
  | compile (jitLevel : Int)
  | lookup
  deriving DecidableEq, Repr

def Resources.use (r : Resources) : Use → Resources
  | .compile jitLevel => r.llvmCompileExpr jitLevel
  | .lookup => r.llvmGetFunction

def Resources.useAll (r : Resources) (uses : List Use) : Resources := uses.foldl Resources.use r

/-- Nothing is left behind: every module was handed over or disposed of once, every tracker
was removed and released once, and the context is empty. -/
structure Balanced (r : Resources) : Prop where
  modules : ∀ m, m < r.modulesCreated → (r.handedOver ++ r.disposed).count m = 1
  trackers : ∀ k, k < r.trackersCreated → r.removed.count k = 1 ∧ r.released.count k = 1
  fields : ∀ t, r.modules t = none
  handles : r.handles = []

/-- The levels compiled before each emission, and those compiled behind the last one. -/
def batches : List Int → List Use → List (List Int) × List Int
  | current, [] => ([], current)
  | current, .compile jitLevel :: rest => batches (current ++ [jitLevel]) rest
  | current, .lookup :: rest =>
    if current = [] then batches [] rest
    else (current :: (batches [] rest).1, (batches [] rest).2)

/-- A batch that one handle can answer for: all its levels go to one module, and not to the
one an emission drops. -/
def Uniform (batch : List Int) : Prop :=
  ∃ t, t ≠ ModuleType.moduleDef ∧ ∀ jitLevel ∈ batch, moduleOf jitLevel = t

namespace Resources

/-! ## One step in closed form -/

def ids (r : Resources) (types : List ModuleType) : List Nat :=
  types.flatMap fun t => (r.modules t).toList

def pendingIds (r : Resources) : List Nat := r.ids [.moduleJit, .moduleInline, .moduleOpt]

def pointers (r : Resources) : List Nat := r.ids [.moduleJit, .moduleInline, .moduleOpt, .moduleDef]

def freshAt (r : Resources) (jitLevel : Int) : Bool :=
  if jitLevel = 0 then (r.modules .moduleDef).isNone
  else (r.modules .moduleJit).isNone && (r.modules .moduleInline).isNone &&
    (r.modules .moduleOpt).isNone && (r.modules .moduleDef).isNone

section Steps

variable (r : Resources)

lemma llvmCompileExpr_eq (jitLevel : Int) : r.llvmCompileExpr jitLevel =
    { createModule r (moduleOf jitLevel) with
      compiled := if r.freshAt jitLevel then false else r.compiled
      counter := r.counter + 1 } := by
  by_cases dflt : jitLevel = 0
  · subst dflt
    have level : moduleOf 0 = .moduleDef := rfl
    by_cases none : r.modules .moduleDef = none
    · simp [llvmCompileExpr, llvmMutableModule, createModule, freshAt, level, none]
    · simp [llvmCompileExpr, llvmMutableModule, createModule, freshAt, level, none]
  · by_cases idle : r.modules .moduleJit = none ∧ r.modules .moduleInline = none ∧
        r.modules .moduleOpt = none ∧ r.modules .moduleDef = none
    · by_cases none : r.modules (moduleOf jitLevel) = none <;>
        simp [llvmCompileExpr, llvmMutableModuleSelect, createModule, freshAt, dflt, idle, none]
    · have busy : r.freshAt jitLevel = false := by
        rw [Bool.eq_false_iff]
        intro fresh
        exact idle (by simpa [freshAt, dflt, and_assoc] using fresh)
      by_cases none : r.modules (moduleOf jitLevel) = none <;>
        simp [llvmCompileExpr, llvmMutableModuleSelect, createModule, busy, dflt, idle, none]

/-- An emission hands over the pending modules, each under a tracker of its own, and keeps
the last of the trackers. -/
lemma meLlvmCompileModule_eq : r.meLlvmCompileModule =
    { r with
      modules := fun _ => none
      compiled := true
      handles := r.handles ++ [(List.range' r.trackersCreated r.pendingIds.length).getLast?]
      trackersCreated := r.trackersCreated + r.pendingIds.length
      handedOver := r.handedOver ++ r.pendingIds } := by
  cases jit : r.modules .moduleJit <;> cases inline : r.modules .moduleInline <;>
    cases opt : r.modules .moduleOpt <;>
    simp [meLlvmCompileModule, handOverModule, pendingIds, ids, jit, inline, opt, List.range']

/-- The modules `llvm_release_context` disposes of: without `module_opt` all of them. -/
def disposeAll : Resources :=
  disposeModule .moduleDef .moduleDef (disposeModule .moduleInline .moduleInline
    (disposeModule .moduleJit .moduleJit (disposeModule .moduleOpt .moduleDef r)))

lemma disposeModule_self (type : ModuleType) : disposeModule type type r =
    { r with
      modules := Function.update r.modules type none
      disposed := r.disposed ++ (r.modules type).toList } := by
  unfold disposeModule
  cases held : r.modules type with
  | none =>
    have same : Function.update r.modules type none = r.modules := by
      rw [← held, Function.update_eq_self]
    simp [same]
  | some m => rfl

lemma disposeAll_eq (absent : r.modules .moduleOpt = none) : disposeAll r =
    { r with modules := fun _ => none, disposed := r.disposed ++ r.pointers } := by
  have kept : disposeModule .moduleOpt .moduleDef r = r := by
    unfold disposeModule
    rw [absent]
  have empty : Function.update (Function.update (Function.update r.modules .moduleJit none)
      .moduleInline none) .moduleDef none = fun _ => none := by
    funext t
    cases t <;> simp [absent]
  unfold disposeAll
  rw [kept]
  simp only [disposeModule_self, empty]
  simp [pointers, ids, absent]

lemma disposeAll_opt : (disposeAll r).modules .moduleOpt = r.modules .moduleOpt ∧
    (disposeAll r).handles = r.handles := by
  have step : ∀ (t nulled : ModuleType) (r : Resources), nulled ≠ .moduleOpt →
      (disposeModule t nulled r).modules .moduleOpt = r.modules .moduleOpt ∧
        (disposeModule t nulled r).handles = r.handles := by
    intro t nulled r other
    unfold disposeModule
    split
    · exact ⟨rfl, rfl⟩
    · exact ⟨Function.update_of_ne other.symm _ _, rfl⟩
  unfold disposeAll
  constructor <;> simp (disch := decide) only [step]

lemma foldlM_releaseHandle (handles : List (Option Nat)) :
    handles.foldlM releaseHandle r = if none ∈ handles then none else
      some { r with
        removed := r.removed ++ handles.reduceOption
        released := r.released ++ handles.reduceOption } := by
  induction handles generalizing r with
  | nil => simp [List.reduceOption_nil]
  | cons tracker rest ih =>
    cases tracker with
    | none => simp [releaseHandle]
    | some k =>
      rw [List.foldlM_cons, releaseHandle, Option.map_some]
      show rest.foldlM releaseHandle _ = _
      rw [ih]
      simp [List.reduceOption_cons_of_some]

lemma llvmReleaseContext_eq : r.llvmReleaseContext = if none ∈ r.handles then none else
      some { disposeAll r with
        removed := (disposeAll r).removed ++ r.handles.reduceOption
        released := (disposeAll r).released ++ r.handles.reduceOption
        handles := [] } := by
  show ((disposeAll r).handles.foldlM releaseHandle (disposeAll r)).map _ = _
  rw [foldlM_releaseHandle, (disposeAll_opt r).2]
  split_ifs <;> rfl

end Steps

/-! ## Who answers for the modules and trackers -/

lemma ids_update (r : Resources) (t : ModuleType) (m : Nat) {types : List ModuleType}
    (distinct : types.Nodup) (member : t ∈ types) (absent : r.modules t = none) :
    (ids { r with modules := Function.update r.modules t (some m) } types).Perm (r.ids types ++ [m]) := by
  obtain ⟨before, after, rfl⟩ := List.append_of_mem member
  have apart : t ∉ before ∧ t ∉ after := by
    rw [List.nodup_middle, List.nodup_cons, List.mem_append, not_or] at distinct
    exact distinct.1
  have others : ∀ l : List ModuleType, t ∉ l → l.flatMap (fun u => (Function.update r.modules t (some m) u).toList) =
        l.flatMap fun u => (r.modules u).toList := by
    intro l outside
    refine List.flatMap_congr fun u inside => ?_
    have other : u ≠ t := by
      rintro rfl
      exact outside inside
    rw [Function.update_of_ne other]
  simp only [ids, List.flatMap_append, List.flatMap_cons, others before apart.1,
    others after apart.2, Function.update_self, Option.toList_some, absent, Option.toList_none,
    List.nil_append, List.append_assoc]
  have swapped : ∀ rest : List Nat, List.Perm ([m] ++ rest) (rest ++ [m]) :=
    fun _ => List.perm_append_comm
  exact (swapped _).append_left _

lemma dropLast_append_getLast? (l : List Nat) : l.dropLast ++ l.getLast?.toList = l := by
  obtain rfl | ⟨init, last, rfl⟩ := List.eq_nil_or_concat' l
  · rfl
  · simp

lemma length_eq_one_iff (l : List Nat) : l.length = 1 ↔ l.dropLast = [] ∧ ¬ none = l.getLast? := by
  match l with
  | [] | [_] | _ :: _ :: _ => simp

/-- Where the modules and trackers of a context are, after it emitted some batches and
while `current` waits. Nobody answers for what is in `lost` and `orphaned`. -/
structure Accounted (r : Resources) (emitted : List (List Int)) (current : List Int) : Prop where
  pending : ∀ t, r.modules t ≠ none ↔ ∃ jitLevel ∈ current, moduleOf jitLevel = t
  waits : current ≠ [] → r.compiled = false ∧ r.counter ≠ 0
  done : current = [] → r.counter = 0 ∨ r.compiled = true
  untold : r.disposed = [] ∧ r.removed = [] ∧ r.released = []
  owned : ∃ lost orphaned, Shared r.modulesCreated (r.handedOver ++ r.pointers) lost ∧
    Shared r.trackersCreated r.handles.reduceOption orphaned ∧
    ((lost = [] ∧ orphaned = [] ∧ none ∉ r.handles) ↔ ∀ batch ∈ emitted, Uniform batch)

lemma accounted_zero : Accounted zero [] [] where
  pending t := by simp [zero]
  waits some := absurd rfl some
  done _ := .inl rfl
  untold := ⟨rfl, rfl, rfl⟩
  owned := ⟨[], [], shared_zero, shared_zero, by simp [zero]⟩

section Account

variable {r : Resources} {emitted : List (List Int)} {current : List Int}

lemma createModule_ne_none (type t : ModuleType) :
    (createModule r type).modules t ≠ none ↔ r.modules t ≠ none ∨ t = type := by
  unfold createModule
  by_cases same : t = type <;> split_ifs with absent <;> simp [same, absent]

lemma createModule_rest (type : ModuleType) : (createModule r type).handles = r.handles ∧
      (createModule r type).trackersCreated = r.trackersCreated ∧
      (createModule r type).disposed = r.disposed ∧ (createModule r type).removed = r.removed ∧
      (createModule r type).released = r.released := by
  unfold createModule
  split_ifs <;> exact ⟨rfl, rfl, rfl, rfl, rfl⟩

lemma createModule_shared (type : ModuleType) {lost : List Nat}
    (shared : Shared r.modulesCreated (r.handedOver ++ r.pointers) lost) :
    Shared (createModule r type).modulesCreated
      ((createModule r type).handedOver ++ (createModule r type).pointers) lost := by
  unfold createModule
  split_ifs with absent
  · refine (shared.create 1).congr ?_
    rw [List.append_assoc]
    refine List.Perm.append_left _ (ids_update r _ _ (by decide) ?_ absent)
    cases type <;> decide
  · exact shared

lemma Accounted.idle (account : Accounted r emitted []) (t : ModuleType) : r.modules t = none := by
  by_contra held
  obtain ⟨_, member, _⟩ := (account.pending t).mp held
  cases member

/-- **Compiling** adds a level to the batch that waits. -/
theorem Accounted.compile (account : Accounted r emitted current) (jitLevel : Int) :
    Accounted (r.llvmCompileExpr jitLevel) emitted (current ++ [jitLevel]) := by
  obtain ⟨handles, trackers, disposed, removed, released⟩ :=
    createModule_rest (r := r) (moduleOf jitLevel)
  rw [llvmCompileExpr_eq]
  constructor
  · intro t
    show (createModule r (moduleOf jitLevel)).modules t ≠ none ↔ _
    rw [createModule_ne_none, account.pending]
    simp [or_and_right, exists_or, eq_comm]
  · intro _
    refine ⟨?_, Nat.succ_ne_zero _⟩
    show (if r.freshAt jitLevel then false else r.compiled) = false
    split_ifs with fresh
    · rfl
    · refine (account.waits ?_).1
      rintro rfl
      exact fresh (by simp [freshAt, account.idle])
  · exact fun empty => absurd empty (by simp)
  · show (createModule r (moduleOf jitLevel)).disposed = [] ∧ _
    rw [disposed]
    exact ⟨account.untold.1, removed ▸ account.untold.2.1, released ▸ account.untold.2.2⟩
  · obtain ⟨lost, orphaned, shared, kept, fine⟩ := account.owned
    refine ⟨lost, orphaned, createModule_shared (moduleOf jitLevel) shared, ?_, ?_⟩
    · show Shared (createModule r (moduleOf jitLevel)).trackersCreated
        (createModule r (moduleOf jitLevel)).handles.reduceOption orphaned
      rw [handles, trackers]
      exact kept
    · show (lost = [] ∧ orphaned = [] ∧ none ∉ (createModule r (moduleOf jitLevel)).handles) ↔ _
      rw [handles]
      exact fine

/-- One module is handed over and `module` is not dropped exactly when the batch is
uniform. -/
lemma Accounted.uniform_iff (account : Accounted r emitted current) (some : current ≠ []) :
    Uniform current ↔ r.modules .moduleDef = none ∧ r.pendingIds.length = 1 := by
  constructor
  · rintro ⟨t, other, uniform⟩
    have held : ∀ u, r.modules u ≠ none ↔ u = t := by
      intro u
      rw [account.pending]
      constructor
      · rintro ⟨jitLevel, member, rfl⟩
        exact uniform jitLevel member
      · rintro rfl
        obtain ⟨jitLevel, member⟩ := List.exists_mem_of_ne_nil current some
        exact ⟨jitLevel, member, uniform jitLevel member⟩
    have absent : ∀ u, u ≠ t → r.modules u = none := fun u ne => by
      by_contra present
      exact ne ((held u).mp present)
    obtain ⟨m, present⟩ := Option.ne_none_iff_exists'.mp ((held t).mpr rfl)
    refine ⟨absent _ other.symm, ?_⟩
    cases t with
    | moduleDef => exact absurd rfl other
    | moduleJit | moduleInline | moduleOpt => simp [pendingIds, ids, present, absent]
  · rintro ⟨dflt, one⟩
    have only : ∃ t, t ≠ ModuleType.moduleDef ∧ ∀ u, r.modules u ≠ none → u = t := by
      cases jit : r.modules .moduleJit <;> cases inline : r.modules .moduleInline <;>
        cases opt : r.modules .moduleOpt <;> simp [pendingIds, ids, jit, inline, opt] at one
      · exact ⟨.moduleOpt, by decide, fun u held => by cases u <;> simp_all⟩
      · exact ⟨.moduleInline, by decide, fun u held => by cases u <;> simp_all⟩
      · exact ⟨.moduleJit, by decide, fun u held => by cases u <;> simp_all⟩
    obtain ⟨t, other, only⟩ := only
    exact ⟨t, other, fun jitLevel member =>
      only _ ((account.pending _).mpr ⟨jitLevel, member, rfl⟩)⟩

/-- **An emission** hands over the batch that waits. -/
theorem Accounted.emit (account : Accounted r emitted current) (some : current ≠ []) :
    Accounted r.meLlvmCompileModule (emitted ++ [current]) [] := by
  rw [meLlvmCompileModule_eq]
  refine ⟨fun t => by simp, fun empty => absurd rfl empty, fun _ => .inr rfl, account.untold, ?_⟩
  obtain ⟨lost, orphaned, shared, trackers, fine⟩ := account.owned
  have uniform := account.uniform_iff some
  generalize new : List.range' r.trackersCreated r.pendingIds.length = fresh
  have length : fresh.length = r.pendingIds.length := by
    rw [← new, List.length_range']
  refine ⟨lost ++ (r.modules .moduleDef).toList, orphaned ++ fresh.dropLast, ?_, ?_, ?_⟩
  · have split : r.pointers = r.pendingIds ++ (r.modules .moduleDef).toList := by
      simp [pointers, pendingIds, ids]
    rw [split, ← List.append_assoc] at shared
    have empty : ids { r with modules := fun _ => none } [.moduleJit, .moduleInline, .moduleOpt, .moduleDef] = [] := rfl
    show Shared r.modulesCreated (r.handedOver ++ r.pendingIds ++ []) _
    rw [List.append_nil]
    exact shared.drop
  · have created := trackers.create r.pendingIds.length
    rw [new] at created
    show Shared _ (r.handles ++ [fresh.getLast?]).reduceOption _
    rw [List.reduceOption_append, List.reduceOption_singleton]
    apply Shared.drop
    refine created.congr ?_
    rw [List.append_assoc]
    refine List.Perm.append_left _ (List.perm_append_comm.trans ?_)
    rw [dropLast_append_getLast?]
  · show (lost ++ (r.modules .moduleDef).toList = [] ∧ orphaned ++ fresh.dropLast = [] ∧
      none ∉ r.handles ++ [fresh.getLast?]) ↔ _
    have alone := length_eq_one_iff fresh
    rw [List.forall_mem_append, List.forall_mem_singleton, uniform, ← fine, ← length, alone]
    simp only [List.append_eq_nil_iff, Option.toList_eq_nil_iff, List.mem_append,
      List.mem_singleton, not_or]
    tauto

lemma Accounted.run (uses : List Use) : ∀ {r : Resources} {emitted : List (List Int)}
    {current : List Int}, Accounted r emitted current →
    Accounted (r.useAll uses) (emitted ++ (batches current uses).1) (batches current uses).2 := by
  induction uses with
  | nil =>
    intro r emitted current account
    simpa [useAll, batches] using account
  | cons use rest ih =>
    intro r emitted current account
    cases use with
    | compile jitLevel => exact ih (account.compile jitLevel)
    | lookup =>
      show Accounted (useAll r.llvmGetFunction rest) _ _
      unfold batches llvmGetFunction
      by_cases empty : current = []
      · subst empty
        rw [if_pos (account.done rfl), if_pos rfl]
        exact ih account
      · obtain ⟨waits, counted⟩ := account.waits empty
        have emits : ¬ (r.counter = 0 ∨ r.compiled = true) := by
          simp [waits, counted]
        rw [if_neg emits, if_neg empty]
        have after := ih (account.emit empty)
        rwa [List.append_assoc] at after

/-- **Releasing** a context is balanced when nothing is lost and no `module_opt` waits. -/
theorem Accounted.release (account : Accounted r emitted current) :
    (∃ r', r.llvmReleaseContext = some r' ∧ Balanced r') ↔ (∀ batch ∈ emitted, Uniform batch) ∧
        ∀ jitLevel ∈ current, moduleOf jitLevel ≠ .moduleOpt := by
  obtain ⟨lost, orphaned, shared, trackers, fine⟩ := account.owned
  have waiting : (∀ jitLevel ∈ current, moduleOf jitLevel ≠ .moduleOpt) ↔ r.modules .moduleOpt = none := by
    rw [← not_iff_not, ← ne_eq (r.modules _), account.pending]
    push Not
    rfl
  rw [waiting, ← fine, llvmReleaseContext_eq]
  by_cases blank : none ∈ r.handles
  · simp [blank]
  rw [if_neg blank]
  by_cases absent : r.modules .moduleOpt = none
  · rw [disposeAll_eq r absent]
    obtain ⟨disposed, removed, released⟩ := account.untold
    have balanced : Balanced
        { r with
          modules := fun _ => none
          disposed := r.disposed ++ r.pointers
          removed := r.removed ++ r.handles.reduceOption
          released := r.released ++ r.handles.reduceOption
          handles := [] } ↔ lost = [] ∧ orphaned = [] := by
      rw [← shared.once_iff, ← trackers.once_iff]
      constructor
      · intro balanced
        refine ⟨fun m inside => ?_, fun k inside => ?_⟩
        · simpa [disposed] using balanced.modules m inside
        · simpa [removed] using (balanced.trackers k inside).1
      · rintro ⟨modules, once⟩
        refine ⟨fun m inside => ?_, fun k inside => ?_, fun _ => rfl, rfl⟩
        · simpa [disposed] using modules m inside
        · simpa [removed, released] using once k inside
    simp only [Option.some.injEq, exists_eq_left', balanced, blank, not_false_eq_true, and_true,
      absent]
  · -- the field of `module_opt` is left as it is
    refine iff_of_false ?_ fun both => absent both.2
    rintro ⟨r', eq, balanced⟩
    cases eq
    exact absent ((disposeAll_opt r).1.symm.trans (balanced.fields .moduleOpt))

end Account

/-- **What a released context leaves behind**: nothing, exactly when every batch it emitted
went to a single module other than `module`, and no function of level 3 was waiting. -/
theorem release_balanced_iff (uses : List Use) : (∃ r, (zero.useAll uses).llvmReleaseContext = some r ∧ Balanced r) ↔
      (∀ batch ∈ (batches [] uses).1, Uniform batch) ∧
        ∀ jitLevel ∈ (batches [] uses).2, moduleOf jitLevel ≠ .moduleOpt := by
  have account := accounted_zero.run uses
  rw [List.nil_append] at account
  exact account.release

/-- The four ways. With level 3 waiting the pointer to `module_opt` stays, and a `module`
that waits beside it is never disposed of; an emission drops `module`; a second tracker takes
the place of the first; and a handle is released that was never filled in. -/
theorem resources_left_behind : (¬ ∃ r, (zero.useAll [.compile 3]).llvmReleaseContext = some r ∧ Balanced r) ∧
    (zero.useAll [.compile 0, .compile 3]).llvmReleaseContext.map
        (fun r => (r.modulesCreated, r.disposed, r.modules .moduleOpt)) = some (2, [1], some 1) ∧
    (zero.useAll [.compile 0, .compile 1, .lookup]).llvmReleaseContext.map
        (fun r => (r.modulesCreated, r.handedOver, r.disposed)) = some (2, [1], []) ∧
    (zero.useAll [.compile 1, .compile 2, .lookup]).llvmReleaseContext.map
        (fun r => (r.trackersCreated, r.released)) = some (2, [1]) ∧
    ((zero.useAll [.compile 0, .lookup]).llvmReleaseContext).isNone = true := by
  refine ⟨?_, by decide, by decide, by decide, by decide⟩
  rintro ⟨r, eq, balanced⟩
  cases eq
  exact absurd (balanced.fields .moduleOpt) (by decide)

end Resources

/-! ## The resources of a context of a session -/

/-- The resources of a context as `JitContext` has it: which modules wait, and which handles have a tracker. -/
structure Matches (r : Resources) (context : Context) : Prop where
  modules : ∀ t, (r.modules t).isSome = (context.modules t).isSome
  compiled : r.compiled = context.compiled
  counter : r.counter = context.counter
  handles : r.handles.map Option.isSome = context.handles.map fun handle => handle.resourceTracker.isSome

section Session

variable {r : Resources} {s : Session} {c : Nat}

lemma Matches.compile (same : Matches r (s.contexts c)) (jitLevel : Int) :
    Matches (r.llvmCompileExpr jitLevel) ((llvmCompileExprAt s c jitLevel).contexts c) := by
  have fresh : r.freshAt jitLevel = (s.contexts c).freshAt jitLevel := by
    simp only [Resources.freshAt, Context.freshAt, Context.idle, ← Option.not_isSome, same.modules]
  rw [Resources.llvmCompileExpr_eq, llvmCompileExprAt_eq, compileAs_context, fresh]
  refine ⟨fun t => ?_, by rw [same.compiled], congrArg (· + 1) same.counter, ?_⟩
  · by_cases here : t = moduleOf jitLevel
    · by_cases absent : r.modules (moduleOf jitLevel) = .none
      · simp [Resources.createModule, here, absent]
      · simp [Resources.createModule, here, absent, Option.isSome_iff_ne_none]
    · by_cases absent : r.modules (moduleOf jitLevel) = .none <;>
        simp [Resources.createModule, here, absent, same.modules]
  · rw [← same.handles]
    unfold Resources.createModule
    split_ifs <;> rfl

lemma handOverAll_tracker (s : Session) (modules : ModuleType → Option (List Func)) :
    (handOverAll s modules).2.resourceTracker.isSome =
      ((modules .moduleJit).isSome || (modules .moduleInline).isSome ||
        (modules .moduleOpt).isSome) := by
  unfold handOverAll
  cases modules .moduleJit <;> cases modules .moduleInline <;> cases modules .moduleOpt <;> rfl

lemma Matches.emit (same : Matches r (s.contexts c)) :
    Matches r.meLlvmCompileModule ((meLlvmCompileModule s c).contexts c) := by
  have tracker : (List.range' r.trackersCreated r.pendingIds.length).getLast?.isSome =
      ((r.modules .moduleJit).isSome || (r.modules .moduleInline).isSome || (r.modules .moduleOpt).isSome) := by
    cases jit : r.modules .moduleJit <;> cases inline : r.modules .moduleInline <;>
      cases opt : r.modules .moduleOpt <;>
      simp [Resources.pendingIds, Resources.ids, jit, inline, opt, List.range']
  simp only [Resources.meLlvmCompileModule_eq, meLlvmCompileModule, Session.setContext, Function.update_self]
  refine ⟨fun _ => rfl, rfl, same.counter, ?_⟩
  simp only [List.map_append, List.map_singleton, same.handles, tracker, handOverAll_tracker, same.modules]

lemma Matches.lookup (same : Matches r (s.contexts c)) (some : (s.contexts c).counter ≠ 0) :
    Matches r.llvmGetFunction ((emitPending s c).contexts c) := by
  unfold Resources.llvmGetFunction emitPending
  cases flag : (s.contexts c).compiled with
  | true => simpa [same.compiled, flag] using same
  | false =>
    have emits : ¬ (r.counter = 0 ∨ r.compiled = true) := by
      simp [same.compiled, flag, same.counter, some]
    rw [if_neg emits]
    exact same.emit

/-- A use of context `c` in a session. -/
def useIn (c : Nat) (s : Session) : Use → Session
  | .compile jitLevel => llvmCompileExprAt s c jitLevel
  | .lookup => if (s.contexts c).counter = 0 then s else emitPending s c

/-- **The resources follow the context**, whatever it is used for. -/
theorem Matches.useAll (uses : List Use) (same : Matches r (s.contexts c)) :
    Matches (r.useAll uses) ((uses.foldl (useIn c) s).contexts c) := by
  induction uses generalizing r s with
  | nil => exact same
  | cons use rest ih =>
    apply ih
    cases use with
    | compile jitLevel => exact same.compile jitLevel
    | lookup =>
      unfold useIn
      split_ifs with empty
      · rw [← same.counter] at empty
        simpa [Resources.use, Resources.llvmGetFunction, empty] using same
      · exact same.lookup empty

end Session

end Hex.Kernel.JitContext
