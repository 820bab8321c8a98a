/-
# Compiler.Jumps — the jumps of every program go forward

The builders set jump targets after the fact, from lists of positions that each call of the
recursion keeps. `build_jumps`: in every program that they build, whatever the trees are,
each jump target that the interpreter may read is a later step of the program, the last step
is `EEOP_DONE`, and so every interpretation ends after at most as many steps as the program
has.
-/
import Hex.Compiler.Kept

namespace Hex.Compiler

open Theory.BlockCode

/-! ## What one step can do -/

/-- The step takes at most its first `n` jump targets, and columns that were valid stay so. -/
def Advances (n : Nat) (slots : SlotName → Slot) : Flow Machine Raised → Prop
  | .next m => ∀ slot, (slots slot).nvalid ≤ (m.slots slot).nvalid
  | .jump j m => j < n ∧ ∀ slot, (slots slot).nvalid ≤ (m.slots slot).nvalid
  | .done _ => True
  | .fail _ => True

section Advances

variable {n : Nat} {slots : SlotName → Slot} {w : World} {m : Machine}

lemma advances_next (same : m.slots = slots) : Advances n slots (.next m) := by
  subst same
  exact fun _ => (Nat.le_refl _)

lemma advances_jump {j : Nat} (below : j < n) (same : m.slots = slots) : Advances n slots (.jump j m) := by
  subst same
  exact ⟨below, fun _ => (Nat.le_refl _)⟩

lemma advances_ite {c : Prop} [Decidable c] {a b : Flow Machine Raised} (yes : Advances n slots a)
    (no : Advances n slots b) : Advances n slots (if c then a else b) := by
  split
  · exact yes
  · exact no

lemma advances_call {c : Call} {k : List NullableDatum → Machine → Flow Machine Raised} (same : m.slots = slots)
    (rest : ∀ ds m', m'.slots = slots → Advances n slots (k ds m')) : Advances n slots (m.call w c k) := by
  unfold Machine.call
  split
  · trivial
  · exact rest _ _ same

lemma setFirst_slots (cells : List Cell) (d : NullableDatum) : (m.setFirst cells d).slots = m.slots := by
  cases cells <;> rfl

lemma setAll_slots (cells : List Cell) : ∀ (m : Machine) (ds : List NullableDatum),
    (m.setAll cells ds).slots = m.slots := by
  induction cells with
  | nil => exact fun _ _ => rfl
  | cons c cells ih => exact fun m ds => ih (m.set c (returned ds)) ds.tail

lemma advances_fetchSome (slot : SlotName) (lastVar : Nat) :
    Advances n m.slots (slotGetsomeattrs w slot lastVar m) := by
  unfold slotGetsomeattrs
  split
  · rename_i less
    unfold Machine.call
    split
    · trivial
    · intro other
      by_cases eq : other = slot
      · subst eq
        simp only [Machine.setSlot, Function.update_self]
        exact Nat.le_of_lt less
      · simp only [Machine.setSlot, Function.update_of_ne eq]
        exact Nat.le_refl _
  · exact advances_next rfl

lemma advances_boolStep (boolop : AndOr) (pos : StepPos) (res anynull : Cell) :
    Advances (Op.boolStep boolop pos res anynull).jumps m.slots (execBoolStep boolop pos res anynull m) := by
  unfold execBoolStep
  have same : (if pos = .first then m.set anynull { value := 0, isnull := false } else m).slots = m.slots := by
    split <;> rfl
  generalize (if pos = .first then m.set anynull { value := 0, isnull := false } else m) = started at same
  have early : Advances 1 m.slots (if (started.mem res).isnull then .next (started.setNull anynull true)
        else if boolop.decides (started.mem res).value then .jump 0 started else .next started) :=
    advances_ite (advances_next same) (advances_ite (advances_jump Nat.one_pos same) (advances_next same))
  cases pos with
  | first | middle => exact early
  | last =>
    exact advances_ite (advances_next same) (advances_ite (advances_next same)
      (advances_ite (advances_next same) (advances_next same)))

section Same

variable (same : m.slots = slots)

include same

lemma advances_funcExpr (res : Cell) (f : FuncCall) : Advances n slots (execFuncExpr w res f m) :=
  advances_call same fun _ _ same => advances_next same

lemma advances_funcExprStrict (res : Cell) (f : FuncCall) : Advances n slots (execFuncExprStrict w res f m) :=
  advances_ite (advances_next same) (advances_funcExpr same res f)

lemma advances_inputFunction (res : Cell) (inp : FuncCall) (str : Datum) :
    Advances n slots (execInputFunction w res inp str m) :=
  advances_ite (advances_call ((setFirst_slots _ _).trans same) fun _ _ same => advances_next same) (advances_next same)

lemma advances_ioCoerce (res : Cell) (out inp : FuncCall) : Advances n slots (execIOCoerce w res out inp m) :=
  advances_ite (advances_inputFunction same res inp 0)
    (advances_call ((setFirst_slots _ _).trans same) fun _ _ same => advances_inputFunction same res inp _)

lemma advances_distinct (negate : Bool) (res : Cell) (f : FuncCall) :
    Advances n slots (execDistinct w negate res f m) := by
  unfold execDistinct
  split
  · exact advances_ite (advances_next same) (advances_ite (advances_next same)
      (advances_call same fun _ _ same => advances_next same))
  · trivial

lemma advances_nullif (res : Cell) (f : FuncCall) : Advances n slots (execNullif w res f m) := by
  unfold execNullif
  split
  · exact advances_ite (advances_call same fun _ _ same => advances_ite (advances_next same) (advances_next same))
      (advances_next same)
  · trivial

lemma advances_rowCompareStep (res : Cell) (f : FuncCall) : Advances 2 slots (execRowCompareStep w res f m) :=
  advances_ite (advances_jump (by omega) same) (advances_call same fun _ _ same =>
    advances_ite (advances_jump (by omega) same) (advances_ite (advances_jump (by omega) same) (advances_next same)))

lemma advances_aggPlainTrans (t : TransCall) (g : PerGroup) : Advances n slots (execAggPlainTrans w t g m) :=
  advances_call ((setFirst_slots _ _).trans same) fun _ _ same =>
    advances_ite (advances_call same fun _ _ same => advances_next same) (advances_next same)

lemma advances_aggTrans (kind : TransKind) (t : TransCall) : Advances n slots (execAggTrans w kind t m) := by
  unfold execAggTrans
  split
  · trivial
  · cases kind with
    | plain => exact advances_aggPlainTrans same t _
    | strict => exact advances_ite (advances_next same) (advances_aggPlainTrans same t _)
    | initStrict =>
      refine advances_ite ?_ (advances_ite (advances_next same) (advances_aggPlainTrans same t _))
      unfold execAggInitGroup
      split
      · exact advances_call same fun _ _ same => advances_next same
      · trivial

lemma advances_subscriptingRef (res sub : Cell) (helper : Helper) (isAssignment : Bool) :
    Advances 1 slots (execSubscriptingRef w res sub helper isAssignment m) :=
  advances_call same fun _ _ same =>
    advances_ite (advances_ite trivial (advances_jump Nat.one_pos same)) (advances_next same)

end Same

lemma advances_test {c : Prop} [Decidable c] : Advances 1 m.slots (if c then .jump 0 m else .next m) :=
  advances_ite (advances_jump Nat.one_pos rfl) (advances_next rfl)

lemma advances_require {c : Prop} [Decidable c] {raised : Raised} :
    Advances n m.slots (if c then .fail raised else .next m) :=
  advances_ite trivial (advances_next rfl)

/-- **What a step can do**: it takes at most as many jump targets as its opcode has, and does
not invalidate columns. -/
theorem interpStep_advances (w : World) (op : Op) (m : Machine) : Advances op.jumps m.slots (interpStep w op m) := by
  cases op with
  | done => trivial
  | fetchSome slot lastVar => exact advances_fetchSome slot lastVar
  | assignTmpMakeRO | makeReadonly =>
    exact advances_ite (advances_next rfl) (advances_call rfl fun _ _ same => advances_next same)
  | funcExpr res f | funcExprFusage res f => exact advances_funcExpr rfl res f
  | funcExprStrict res f | funcExprStrictFusage res f => exact advances_funcExprStrict rfl res f
  | boolStep boolop pos res anynull => exact advances_boolStep boolop pos res anynull
  | qual | aggPlainPergroupNullcheck =>
    simp only [interpStep]
    split
    · exact advances_jump Nat.one_pos rfl
    · exact advances_next rfl
  | jump => exact advances_jump Nat.one_pos rfl
  | jumpIfNull | jumpIfNotNull | jumpIfNotTrue | aggStrictInputCheck => exact advances_test
  | boolTest res test =>
    apply advances_next
    unfold execBoolTest
    split
    · rfl
    · cases test <;> rfl
  | ioCoerce res out inp => exact advances_ioCoerce rfl res out inp
  | distinct res f => exact advances_distinct rfl true res f
  | notDistinct res f => exact advances_distinct rfl false res f
  | nullif res f => exact advances_nullif rfl res f
  | rowCompareStep res f => exact advances_rowCompareStep rfl res f
  | domainNotnull | domainCheck => exact advances_require
  | eval helper reads writes =>
    exact advances_call rfl fun ds m' same => advances_next ((setAll_slots writes m' ds).trans same)
  | sbsrefSubscript res sub helper isAssignment => exact advances_subscriptingRef rfl res sub helper isAssignment
  | aggDeserialize strict res f =>
    cases strict with
    | false => exact advances_funcExpr rfl res f
    | true =>
      exact advances_ite (advances_jump Nat.one_pos rfl) (advances_funcExpr rfl res f)
  | aggPlainTrans kind t => exact advances_aggTrans rfl kind t
  | _ => exact advances_next rfl

lemma interpStep_jump {op : Op} {j : Nat} {m' : Machine} (flow : interpStep w op m = .jump j m') : j < op.jumps := by
  have advances := interpStep_advances w op m
  rw [flow] at advances
  exact advances.1

end Advances

/-! ## Programs -/

/-- A step has the jump targets that the interpreter reads. -/
def Labelled (i : Instr Op Nat) : Prop := i.op.jumps ≤ i.labels.length

lemma varOpcode_jumps (v : Var) (res : Cell) : (varOpcode v res).jumps = 0 := by
  unfold varOpcode
  split
  · rfl
  · split <;> rfl

/-- Every Var is read by steps without jump targets. -/
lemma reads_labelled (v : Var) : Reads Labelled v :=
  ⟨fun res => Nat.le_of_eq (varOpcode_jumps v res), fun _ _ => Nat.zero_le _⟩

lemma Source.gen_labelled (setup : Setup) (src : Source) : (src.gen setup).Each Labelled := by
  have admits : Admits Labelled := fun _ _ enough _ => enough
  apply (src.fetches_each admits setup).seq
  apply src.body_each admits setup (fun v _ => reads_labelled v) (fun v _ => reads_labelled v)
  exact fun _ _ _ _ _ => Nat.zero_le _

lemma Source.program_steps (setup : Setup) (src : Source) : (src.program setup).code.flatten 0 [] =
      ((src.gen setup).piece src.heap).code.flatten 0 [] ++ [{ op := .done, labels := [] }] := rfl

/-- Each step of a program either belongs to the code before `EEOP_DONE`, and its jump targets
are later steps, or it is the last one. -/
lemma Source.program_jumps (setup : Setup) (src : Source) {pc : Nat} {i : Step}
    (here : ((src.program setup).code.flatten 0 [])[pc]? = some i) :
    i.op.jumps ≤ i.labels.length ∧
      ∀ label ∈ i.labels, ∃ t, label = some t ∧ pc < t ∧ t < ((src.program setup).code.flatten 0 []).length := by
  rw [src.program_steps setup] at here ⊢
  generalize code : ((src.gen setup).piece src.heap).code = body at here ⊢
  have closed : body.Closed 0 := code ▸ ((src.gen setup).piece src.heap).closed
  have each : body.Each Labelled := code ▸ src.gen_labelled setup src.heap
  by_cases inside : pc < (body.flatten 0 []).length
  · rw [List.getElem?_append_left inside] at here
    obtain ⟨j, labelled, sameOp, sameLength⟩ := Code.each_flatten each 0 [] i (List.mem_of_getElem? here)
    refine ⟨?_, fun label member => ?_⟩
    · rw [← sameOp, ← sameLength]
      exact labelled
    · obtain ⟨t, eq, later, target⟩ :=
        @Code.flatten_forward _ body [] closed 0 (by simp) pc i here label member
      refine ⟨t, eq, by omega, ?_⟩
      rw [List.length_append, Code.length_flatten, List.length_singleton]
      rcases target with within | none
      · omega
      · exact absurd none List.not_mem_nil
  · rw [List.getElem?_append_right (Nat.not_lt.mp inside)] at here
    have last := List.mem_of_getElem? here
    rw [List.mem_singleton.mp last]
    exact ⟨Nat.le_refl 0, fun _ member => absurd member List.not_mem_nil⟩

lemma Source.program_forward (w : World) (setup : Setup) (src : Source) :
    Forward (interpStep w) ((src.program setup).code.flatten 0 []) := by
  refine ⟨fun pc i m j m' here flow => ?_, fun pc i m m' here flow => ?_⟩
  · obtain ⟨enough, later⟩ := src.program_jumps setup here
    have inside : j < i.labels.length := Nat.lt_of_lt_of_le (interpStep_jump flow) enough
    have label : i.labels[j]? = some (i.labels.get ⟨j, inside⟩) := List.getElem?_eq_getElem inside
    obtain ⟨t, eq, behind, target⟩ := later _ (List.mem_of_getElem? label)
    exact ⟨t, by rw [label, eq], behind, target⟩
  · rw [src.program_steps setup] at here ⊢
    by_contra last
    -- the last step is `EEOP_DONE`, which does not go on
    have bound := (List.getElem?_eq_some_iff.mp here).1
    rw [List.length_append, List.length_singleton] at last bound
    rw [List.getElem?_append_right (by omega)] at here
    have done := List.mem_of_getElem? here
    rw [List.mem_singleton.mp done] at flow
    cases flow

/-- **Every program ends**: each jump target that the interpreter may read is a later step of
the program, the last step is `EEOP_DONE`, and an interpretation comes to it after at most as
many steps as the program has, unless an error is raised. -/
theorem build_jumps (setup : Setup) (src : Source) (st : ExprState) (built : src.build setup = some st) :
    (∀ pc step, st.steps[pc]? = some step → ∀ j < step.op.jumps,
      ∃ t, step.labels[j]? = some (some t) ∧ pc < t ∧ t < st.steps.length) ∧
    st.steps.getLast? = some { op := .done, labels := [] } ∧
    ∀ (w : World) (m : Machine), (∃ t, execInterpExpr w st.steps m = .finished t) ∨
      ∃ raised, execInterpExpr w st.steps m = .failed raised := by
  have steps := (build_isProgram setup built).steps
  rw [steps]
  refine ⟨fun pc step here j below => ?_, ?_, fun w m => ?_⟩
  · obtain ⟨enough, later⟩ := src.program_jumps setup here
    have label : step.labels[j]? = some (step.labels.get ⟨j, Nat.lt_of_lt_of_le below enough⟩) :=
      List.getElem?_eq_getElem _
    obtain ⟨t, eq, behind, target⟩ := later _ (List.mem_of_getElem? label)
    exact ⟨t, by rw [label, eq], behind, target⟩
  · rw [src.program_steps setup, List.getLast?_append]
    rfl
  · apply (src.program_forward w setup).ends
    · rw [src.program_steps setup, List.length_append, List.length_singleton]
      omega
    · omega

/-- `coalesce(x, y) IS NOT NULL` for two columns, as a qual. -/
def coalesceQual : Source :=
  .qual [.nullTest false false (.coalesceExpr
    [.var { varno := .scan, varattno := 1, vartype := 23 }, .var { varno := .scan, varattno := 2, vartype := 23 }])]

/-- Its eight steps; the first COALESCE step jumps to the test, the last step of the qual to
`EEOP_DONE`. -/
theorem coalesceQual_jumps : ∃ st, coalesceQual.build sampleSetup = some st ∧
    (st.steps.map Instr.labels = [[], [], [some 5], [], [some 5], [], [some 7], []]) ∧
    (∀ pc step, st.steps[pc]? = some step → ∀ j < step.op.jumps,
      ∃ t, step.labels[j]? = some (some t) ∧ pc < t ∧ t < st.steps.length) :=
  ⟨_, rfl, by decide, (build_jumps sampleSetup coalesceQual _ rfl).1⟩

end Hex.Compiler
