/-
# Compiler.Builds — the code of whole programs, run by both executors

`Runs` and `Leaves` say that both executors run code in step, from one set of cells that may
differ to another. In a whole program these are workspace: between two expressions the work
cells may differ and nothing else.

* `RunsThrough`, `RunsOut`: both executors run through the code, or leave the block around it,
  and agree afterwards on all cells that are not workspace.
* `RunsThrough.sameOutcome`: what follows for code with `EEOP_DONE` behind it.
-/
import Hex.Compiler.FollowsGen

namespace Hex.Compiler

open Theory.BlockCode

/-! ## Workspace -/

/-- Between two expressions the workspace may differ: work cells from `lo` on. -/
structure Work (lo h : Nat) (D : Set Cell) : Prop where
  grows : lo ≤ h
  sub : D ⊆ Dirty ∅ lo h

section Work

variable {lo h h' : Nat} {D M : Set Cell} {c res : Cell} {s : Scope}

lemma Work.later (work : Work lo h D) (onward : Onward h D h' M) : Work lo h' M :=
  ⟨Nat.le_trans work.grows onward.grows, fun _ inside =>
    Dirty.behind work.sub work.grows onward.grows (onward.sub inside)⟩

lemma Work.clean (work : Work lo h D) (old : Older lo c) : c ∉ D :=
  fun inside => not_mem_dirty (Set.notMem_empty c) old (work.sub inside)

lemma Work.result (work : Work lo h D) : Cell.result ∉ D := work.clean nofun

/-- The result cell and the placeholders are not in the workspace. -/
structure Placed (lo : Nat) (s : Scope) (res : Cell) : Prop where
  result : Older lo res
  held : ∀ c, s.Holds true c → Older lo c
  clear : Clear true false s res

lemma placed_top (top : s = .top) (old : Older lo res) : Placed lo s res := by
  subst top
  exact ⟨old, nofun, nofun, nofun⟩

lemma Placed.entry {uses : Bool} (placed : Placed lo s res) (work : Work lo h D) : Entry uses false s res h D where
  older := Onward.older ⟨work.grows, work.sub⟩ fun _ never => never.elim
  held c holds := by
    have old := placed.held c (holds.mono fun _ => rfl)
    exact ⟨old.mono work.grows, work.clean old⟩
  old := placed.result.mono work.grows
  clear := placed.clear.mono (fun _ => rfl) id

end Work

/-! ## Code of programs -/

section Programs

variable (w : World) (llvm : Llvm) (lo : Nat)

def RunsThrough (g : Gen 0) : Prop := ∀ ⦃h D⦄, Work lo h D → Runs w llvm g h D D

/-- Both executors run through the code, or both leave the block around it. -/
def RunsOut (g : Gen 1) : Prop := ∀ ⦃h D⦄, Work lo h D → Leaves w llvm g h D D D

variable {w llvm lo}

namespace RunsThrough

lemma nop : RunsThrough w llvm lo .nop := fun _ _ _ => Runs.nop

lemma seq {a b : Gen 0} (first : RunsThrough w llvm lo a) (second : RunsThrough w llvm lo b) :
    RunsThrough w llvm lo (a.seq b) :=
  fun _ _ work => (first work).andThen (second (work.later (.behind fun _ => id)))

lemma step {op : Op} (steps : ∀ {h D}, Work lo h D → StepsOn w llvm op D [] D) :
    RunsThrough w llvm lo (.step op) := fun _ _ work => Runs.step (steps work)

lemma store (c : Cell) (value : NullableDatum) : RunsThrough w llvm lo (.store c value) :=
  fun _ _ _ => Runs.store c value

lemma ite {c : Prop} [Decidable c] {a b : Gen 0} (first : RunsThrough w llvm lo a)
    (second : RunsThrough w llvm lo b) : RunsThrough w llvm lo (if c then a else b) := by
  split
  · exact first
  · exact second

lemma expr (keeps : llvm.Keeps) (setup : Setup) {n : Node} (wf : n.wellFormed = true) {s : Scope} {res : Cell}
    (placed : Placed lo s res) : RunsThrough w llvm lo (gen setup n s res) :=
  fun _ _ work => (gen_follows keeps setup n wf).fills (placed.entry work)

lemma array (keeps : llvm.Keeps) (setup : Setup) (args : List Node) (wf : listWellFormed args = true) {s : Scope}
    (cells : List Cell) (placed : ∀ c ∈ cells, Placed lo s c) : RunsThrough w llvm lo (genArray setup args s cells) :=
  fun _ _ work => genArray_follows keeps setup args wf fun c member => (placed c member).entry work

end RunsThrough

namespace RunsOut

lemma inner {g : Gen 0} (runs : RunsThrough w llvm lo g) : RunsOut w llvm lo (.inner g) :=
  fun _ _ work => (runs work).inner.leaves

lemma nop : RunsOut w llvm lo .nop := fun _ _ _ => Runs.nop.leaves

lemma seq {a b : Gen 1} (first : RunsOut w llvm lo a) (second : RunsOut w llvm lo b) : RunsOut w llvm lo (a.seq b) :=
  fun _ _ work => (first work).andThen (second (work.later (.behind fun _ => id)))

lemma ite {c : Prop} [Decidable c] {a b : Gen 1} (first : RunsOut w llvm lo a) (second : RunsOut w llvm lo b) :
    RunsOut w llvm lo (if c then a else b) := by
  split
  · exact first
  · exact second

lemma jump {op : Op} (steps : ∀ {h D}, Work lo h D → StepsOut w llvm op D) :
    RunsOut w llvm lo (.jump op [0] Gen.first_inside) :=
  fun _ _ work => Carries.leaving (steps work).carries subset_spoils subset_spoils

lemma block {g : Gen 1} (runs : RunsOut w llvm lo g) : RunsThrough w llvm lo (.block g) :=
  fun _ _ work => Runs.block (runs work)

end RunsOut

/-! ## Whole programs -/

/-- Two ends of a program that cannot be told apart from outside. -/
structure SameEnd (m m' : Machine) : Prop where
  result : (m.mem .result).sql = (m'.mem .result).sql
  resultslot : ∀ i, (m.resultslot i).sql = (m'.resultslot i).sql
  pergroups : m.pergroups = m'.pergroups
  trace : m.trace = m'.trace

/-- Both executors finish with the same end, or raise the same error after the same calls. -/
def SameOutcome (w : World) (llvm : Llvm) (steps : List Step) (m : Machine) : Prop :=
  (∃ t t', execInterpExpr w steps m = .finished t ∧ runCompiledExpr w llvm steps m = .finished t' ∧ SameEnd t t') ∨
  (∃ raised, execInterpExpr w steps m = .failed raised ∧ runCompiledExpr w llvm steps m = .failed raised)

lemma Agree.sameEnd {h : Nat} {D : Set Cell} {m m' : Machine} (agree : Agree D m m') (work : Work lo h D) :
    SameEnd m m' where
  result := agree.mem .result work.result
  resultslot := agree.resultslot
  pergroups := agree.pergroups
  trace := agree.trace

/-- **Code with `EEOP_DONE` behind it has the same outcome with both executors**, where the
datums that its run meets have the types that both rely on. -/
theorem RunsThrough.sameOutcome {g : Gen 0} (runs : RunsThrough w llvm lo g) {steps : List Step}
    (flat : steps = (((g.seq (.step .done)).piece lo).code).flatten 0 []) (m : Machine)
    (typed : Admissible (Op.typed w) (interpStep w) steps m) : SameOutcome w llvm steps m := by
  have start : Work lo lo ∅ := ⟨Nat.le_refl lo, fun _ never => never.elim⟩
  have sim : Carries w llvm ∅ ((g.seq (.step .done)).piece lo).code
      { next := fun _ _ => False, exit := fun _ _ _ => False, done := Agree (g.spoils lo ∅) } :=
    (runs start).before (Sim.instr fun m m' agree _ => ⟨m', rfl, agree⟩)
  rw [flat] at typed ⊢
  rcases run_related sim (Agree.refl m) typed with ⟨t, t', ran, ran', agree⟩ | ⟨e, failed, failed'⟩
  · exact Or.inl ⟨t, t', ran, ran', agree.sameEnd (start.later (.behind fun _ => id))⟩
  · exact Or.inr ⟨e, failed, failed'⟩

end Programs

end Hex.Compiler
