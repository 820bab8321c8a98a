/-
# Kernel.JitNames — names that are never given twice

The name of a compiled function is made of the generation of its batch and of a
counter of its context. The generation is taken by `llvm_mutable_module`, when the
context has no `module`, and by `llvm_mutable_module_select`, when it has none of the
four modules; the two also set `compiled` to false.

`Kept` is what keeps the names apart, and the flag right; a compile of any kind keeps
it (`Kept.compileAs`), and so does whatever empties the modules of a context
(`Kept.emptied`).
-/
import Hex.Kernel.JitContext
import Hex.Theory.CText

namespace Hex.Kernel.JitContext

open Theory.CText

/-- `psprintf("%s_%zu_%d", "evalexpr", …)`. -/
def FuncName.text (name : FuncName) : Text :=
  "evalexpr_".toList ++ (decimal name.generation ++ '_' :: decimal name.counter)

/-! ## The names of a session -/

/-- What keeps the names apart, and the flag right. -/
structure Kept (s : Session) : Prop where
  /-- No name is given twice. -/
  names : ∀ (k l : Nat) (e f : Compiled), s.exprs[k]? = some e → s.exprs[l]? = some f → e.funcname = f.funcname → k = l
  generation : ∀ (k : Nat) (e : Compiled), s.exprs[k]? = some e → e.funcname.generation < s.llvmGeneration
  counter : ∀ (k : Nat) (e : Compiled), s.exprs[k]? = some e → e.funcname.counter < (s.contexts e.context).counter
  /-- A generation belongs to one context. -/
  owner : ∀ (k l : Nat) (e f : Compiled), s.exprs[k]? = some e → s.exprs[l]? = some f →
    e.funcname.generation = f.funcname.generation → e.context = f.context
  active : ∀ (c : Nat) (t : ModuleType), (s.contexts c).modules t ≠ none →
    ∃ (k : Nat) (e : Compiled), s.exprs[k]? = some e ∧ e.context = c ∧
      e.funcname.generation = (s.contexts c).moduleGeneration
  /-- A context with pending code is marked as not compiled. -/
  waiting : ∀ (c : Nat) (t : ModuleType), (s.contexts c).modules t ≠ none → (s.contexts c).compiled = false
  /-- A module is created for a function. -/
  filled : ∀ (c : Nat) (t : ModuleType), (s.contexts c).modules t ≠ some []

lemma kept_initial : Kept .initial := by
  constructor <;> simp [Session.initial, Context.zero]

lemma getElem?_snoc {α : Type} {l : List α} {x y : α} {k : Nat} :
    (l ++ [x])[k]? = some y ↔ l[k]? = some y ∨ (k = l.length ∧ y = x) := by
  rw [List.getElem?_append]
  split_ifs with inside
  · constructor
    · exact .inl
    · rintro (old | ⟨rfl, _⟩)
      · exact old
      · exact absurd inside (Nat.lt_irrefl _)
  · rw [List.getElem?_singleton, List.getElem?_eq_none (Nat.le_of_not_lt inside)]
    split_ifs with last
    · simp only [Option.some.injEq, false_or]
      constructor
      · rintro rfl
        exact ⟨by omega, rfl⟩
      · rintro ⟨_, rfl⟩
        rfl
    · simp only [false_or, false_iff]
      rintro ⟨rfl, _⟩
      omega

lemma used_of_not_idle {context : Context} (busy : context.idle = false) : ∃ t, context.modules t ≠ none := by
  by_contra none
  push Not at none
  simp [Context.idle, none] at busy

section CompileAs

variable {s : Session} {c : Nat} {level : ModuleType} {fresh : Bool}

lemma compileAs_getElem? {k : Nat} {e : Compiled} :
    (compileAs s c level fresh).exprs[k]? = some e ↔ s.exprs[k]? = some e ∨
      (k = s.exprs.length ∧ e = { context := c, funcname := nameAs s c fresh, level }) :=
  getElem?_snoc

section Batch

variable (kept : Kept s) (used : fresh = false → ∃ t, (s.contexts c).modules t ≠ none)
include kept used

lemma Kept.batch_owner {k : Nat} {e : Compiled} (old : s.exprs[k]? = some e)
    (same : e.funcname.generation = generationAs s c fresh) : e.context = c := by
  unfold generationAs at same
  split_ifs at same with new
  · have := kept.generation k e old
    omega
  · obtain ⟨t, module⟩ := used (Bool.eq_false_iff.mpr new)
    obtain ⟨l, f, owned, rfl, generation⟩ := kept.active c t module
    exact kept.owner k l e f old owned (same.trans generation.symm)

lemma Kept.batch_lt : generationAs s c fresh < (compileAs s c level fresh).llvmGeneration := by
  show generationAs s c fresh < if fresh then s.llvmGeneration + 1 else s.llvmGeneration
  unfold generationAs
  split_ifs with new
  · exact Nat.lt_succ_self _
  · obtain ⟨t, module⟩ := used (Bool.eq_false_iff.mpr new)
    obtain ⟨l, f, owned, _, generation⟩ := kept.active c t module
    rw [← generation]
    exact kept.generation l f owned

lemma Kept.name_new {k : Nat} {e : Compiled} (old : s.exprs[k]? = some e) : e.funcname ≠ nameAs s c fresh := by
  intro same
  have context := kept.batch_owner used old (congrArg FuncName.generation same)
  have counter := kept.counter k e old
  rw [same, context] at counter
  exact Nat.lt_irrefl _ counter

/-- **Compiling an expression keeps the names apart**, when it starts a new batch or adds
to a pending one. -/
theorem Kept.compileAs : Kept (compileAs s c level fresh) := by
  constructor
  · intro k l e f first second same
    rcases compileAs_getElem?.mp first with old | ⟨rfl, rfl⟩ <;>
      rcases compileAs_getElem?.mp second with old' | ⟨rfl, rfl⟩
    · exact kept.names k l e f old old' same
    · exact absurd same (kept.name_new used old)
    · exact absurd same.symm (kept.name_new used old')
    · rfl
  · intro k e logged
    rcases compileAs_getElem?.mp logged with old | ⟨rfl, rfl⟩
    · have bound := kept.generation k e old
      show _ < if fresh then s.llvmGeneration + 1 else s.llvmGeneration
      split_ifs <;> omega
    · exact kept.batch_lt used
  · intro k e logged
    rcases compileAs_getElem?.mp logged with old | ⟨rfl, rfl⟩
    · have bound := kept.counter k e old
      by_cases same : e.context = c
      · rw [same] at bound ⊢
        rw [compileAs_context]
        exact Nat.lt_succ_of_lt bound
      · rwa [compileAs_other same]
    · rw [compileAs_context]
      exact Nat.lt_succ_self _
  · intro k l e f first second same
    rcases compileAs_getElem?.mp first with old | ⟨rfl, rfl⟩ <;>
      rcases compileAs_getElem?.mp second with old' | ⟨rfl, rfl⟩
    · exact kept.owner k l e f old old' same
    · exact kept.batch_owner used old same
    · exact (kept.batch_owner used old' same.symm).symm
    · rfl
  · intro d t module
    by_cases same : d = c
    · subst same
      rw [compileAs_context]
      exact ⟨s.exprs.length, _, compileAs_getElem?.mpr (.inr ⟨rfl, rfl⟩), rfl, rfl⟩
    · rw [compileAs_other same] at module ⊢
      obtain ⟨k, e, old, facts⟩ := kept.active d t module
      exact ⟨k, e, compileAs_getElem?.mpr (.inl old), facts⟩
  · intro d t module
    by_cases same : d = c
    · subst same
      rw [compileAs_context]
      cases fresh with
      | true => rfl
      | false =>
        obtain ⟨u, pending⟩ := used rfl
        exact kept.waiting d u pending
    · rw [compileAs_other same] at module ⊢
      exact kept.waiting d t module
  · intro d t
    by_cases same : d = c
    · subst same
      rw [compileAs_context]
      by_cases here : t = level
      · subst here
        simp
      · exact (Function.update_of_ne here _ _).trans_ne (kept.filled d t)
    · rw [compileAs_other same]
      exact kept.filled d t

end Batch

end CompileAs

/-- **Emptying the modules of a context keeps the names apart.** -/
theorem Kept.emptied {s s' : Session} {c : Nat} (kept : Kept s) (exprs : s'.exprs = s.exprs)
    (generation : s'.llvmGeneration = s.llvmGeneration) (others : ∀ d, d ≠ c → s'.contexts d = s.contexts d)
    (counter : (s'.contexts c).counter = (s.contexts c).counter)
    (none : ∀ t, (s'.contexts c).modules t = none) : Kept s' := by
  constructor
  · rw [exprs]
    exact kept.names
  · rw [exprs, generation]
    exact kept.generation
  · rw [exprs]
    intro k e logged
    have bound := kept.counter k e logged
    by_cases same : e.context = c
    · rw [same] at bound ⊢
      rwa [counter]
    · rwa [others _ same]
  · rw [exprs]
    exact kept.owner
  · intro d t module
    by_cases same : d = c
    · exact absurd (none t) (same ▸ module)
    · rw [others d same] at module ⊢
      rw [exprs]
      exact kept.active d t module
  · intro d t module
    by_cases same : d = c
    · exact absurd (none t) (same ▸ module)
    · rw [others d same] at module ⊢
      exact kept.waiting d t module
  · intro d t
    by_cases same : d = c
    · rw [same, none]
      exact nofun
    · rw [others d same]
      exact kept.filled d t

/-! ## The names as texts -/

lemma decimal_injective : Function.Injective decimal := by
  intro m n same
  rw [← digitsValue_decimal m, same, digitsValue_decimal]

/-- The number in front of an underscore can be read back. -/
lemma takeWhile_decimal (n : Nat) (rest : Text) : (decimal n ++ '_' :: rest).takeWhile Char.isDigit = decimal n := by
  rw [List.takeWhile_append_of_pos fun c member => isDigit_of_mem_decimal member]
  exact (congrArg (decimal n ++ ·) rfl).trans (List.append_nil _)

lemma text_injective : Function.Injective FuncName.text := by
  rintro ⟨g, n⟩ ⟨g', n'⟩ same
  have numbers : decimal g ++ '_' :: decimal n = decimal g' ++ '_' :: decimal n' :=
    List.append_cancel_left same
  have generation : decimal g = decimal g' := by
    rw [← takeWhile_decimal g (decimal n), numbers, takeWhile_decimal]
  rw [generation] at numbers
  have counter : decimal n = decimal n' := (List.cons.inj (List.append_cancel_left numbers)).2
  rw [decimal_injective generation, decimal_injective counter]

lemma Kept.texts_nodup {s : Session} (kept : Kept s) : (s.exprs.map fun e => e.funcname.text).Nodup := by
  rw [List.nodup_iff_injective_getElem]
  intro k l same
  simp only [List.getElem_map] at same
  exact Fin.ext (kept.names k l _ _ (List.getElem?_eq_getElem _) (List.getElem?_eq_getElem _) (text_injective same))

end Hex.Kernel.JitContext
