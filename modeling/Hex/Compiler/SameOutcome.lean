/-
# Compiler.SameOutcome — compiled programs do what the interpreter does

Every program of the expression compiler, whatever it is built for, has the same outcome
with `ExecInterpExpr` and with the code that `llvm_compile_expr` emits for it:
`build_sameOutcome`. For the code of each builder, as it is in `Programs`, there is a lemma
that both run it in step.

Three things are needed that the two executors do not establish themselves: what stands in
argument records survives `llvm.lifetime.end`, the comparison functions of row comparisons
return int4 datums, and the old value of a field is read before the new one is computed in
its place. `outcomes_differ` has programs that come out differently without them.
-/
import Hex.Compiler.Builds
import Hex.Compiler.SqlOutcome

namespace Hex.Compiler

open Theory.BlockCode

/-! ## Well-formed programs -/

def PerTrans.wellFormed (p : PerTrans) : Bool := listWellFormed p.args && optionWellFormed p.aggfilter

/-- The trees of a program are those that `ExecInitExprRec` takes for granted. -/
def Source.wellFormed : Source → Bool
  | .expr node => node.wellFormed
  | .qual conditions => listWellFormed conditions
  | .check conditions => listWellFormed conditions
  | .element elemexpr => elemexpr.wellFormed
  | .projection targetList _ _ => listWellFormed (targetList.map TargetEntry.expr)
  | .aggTrans _ pertrans => pertrans.all PerTrans.wellFormed
  | .groupingEqual _ _ _ => true

section Programs

variable {w : World} {llvm : Llvm} {st : ExprState}

lemma genFetch_runs (virtual : Bool) (slot : SlotName) (lastVar : Nat) :
    RunsThrough w llvm 0 (genFetch virtual slot lastVar) :=
  .ite .nop (.step fun _ => steps_fetchSome slot lastVar)

lemma genSlots_runs (setup : Setup) (info : LastAttnumInfo) : RunsThrough w llvm 0 (genSlots setup info) := by
  have slot (name : SlotName) (lastVar : Nat) : RunsThrough w llvm 0 (genSlot setup name lastVar) :=
    .ite (genFetch_runs _ name lastVar) .nop
  exact (slot _ _).seq ((slot _ _).seq (slot _ _))

/-! ## Expressions, quals and projections -/

variable (keeps : llvm.Keeps) (setup : Setup)

include keeps

/-- An expression of a whole program goes to a cell that is not workspace. -/
lemma gen_runs {n : Node} (wf : n.wellFormed = true) (res : Cell) (old : Older 0 res) :
    RunsThrough w llvm 0 (gen setup n .top res) :=
  .expr keeps setup wf (placed_top rfl old)

lemma genQualArgs_runs (conditions : List Node) (wf : listWellFormed conditions = true) :
    RunsOut w llvm 0 (genQualArgs setup conditions) := by
  induction conditions with
  | nil => exact .nop
  | cons e rest ih =>
    simp only [listWellFormed, Bool.and_eq_true] at wf
    apply (RunsOut.inner (gen_runs keeps setup wf.1 .result (older_result 0))).seq
    apply (RunsOut.jump fun work => steps_qual work.result).seq
    exact ih wf.2

lemma genTarget_runs (junk : Bool) (inputDesc : Option (List DescAttr)) (tle : TargetEntry)
    (wf : tle.expr.wellFormed = true) : RunsThrough w llvm 0 (genTarget setup junk inputDesc tle) := by
  unfold genTarget
  cases tle.safeVar junk inputDesc with
  | some v => exact .step fun _ => steps_assignVar _ _ _
  | none =>
    apply (gen_runs keeps setup wf .result nofun).seq
    apply RunsThrough.ite .nop
    split
    · exact .step fun work => steps_assignTmpMakeRO _ work.result
    · exact .step fun work => steps_assignTmp _ work.result

lemma genTargets_runs (junk : Bool) (inputDesc : Option (List DescAttr)) :
    ∀ targetList : List TargetEntry, listWellFormed (targetList.map TargetEntry.expr) = true →
    RunsThrough w llvm 0 (genTargets setup junk inputDesc targetList)
  | [], _ => .nop
  | tle :: rest, wf => by
    simp only [List.map_cons, listWellFormed, Bool.and_eq_true] at wf
    exact (genTarget_runs keeps setup junk inputDesc tle wf.1).seq
      (genTargets_runs junk inputDesc rest wf.2)

/-! ## Aggregate transitions -/

omit keeps in
lemma inputs_clean {transno n h : Nat} {D : Set Cell} (work : Work 0 h D) : ∀ c ∈ PerTrans.inputs transno n, c ∉ D := by
  intro c member
  obtain ⟨i, _, rfl⟩ := List.mem_map.mp member
  exact work.clean nofun

omit keeps in
lemma sortCells_clean {transno n h : Nat} {D : Set Cell} (work : Work 0 h D) :
    ∀ c ∈ PerTrans.sortCells transno n, c ∉ D := by
  intro c member
  obtain ⟨i, _, rfl⟩ := List.mem_map.mp member
  exact work.clean nofun

omit keeps in
lemma targets_old (p : PerTrans) (transno : Nat) : ∀ c ∈ p.targets transno, Older 0 c := by
  intro c member
  unfold PerTrans.targets at member
  split at member
  · obtain ⟨i, _, rfl⟩ := List.mem_map.mp member
    exact nofun
  · split at member
    · rw [List.mem_singleton.mp member]
      exact nofun
    · obtain ⟨i, _, rfl⟩ := List.mem_map.mp member
      exact nofun

lemma steps_transOpcode (p : PerTrans) (transno setno setoff : Nat) {h : Nat} {D : Set Cell} (work : Work 0 h D)
    {labels : List Nat} : StepsOn w llvm (p.transOpcode transno setno setoff) D labels D := by
  unfold PerTrans.transOpcode
  split
  · exact steps_aggPlainTrans keeps _ (inputs_clean work)
  · split
    · refine (steps_eval _ [] (List.forall_mem_singleton.mpr work.result)).mono ?_
      exact fun c inside => inside.1
    · refine (steps_eval _ [] (sortCells_clean work)).mono ?_
      exact fun c inside => inside.1

lemma genTransCall_runs (nullcheck : Bool) (p : PerTrans) (transno setno setoff : Nat) :
    RunsThrough w llvm 0 (genTransCall nullcheck p transno setno setoff) := by
  have step : RunsThrough w llvm 0 (.step (p.transOpcode transno setno setoff)) :=
    .step fun work => steps_transOpcode keeps p transno setno setoff work
  refine RunsThrough.ite (RunsOut.block ?_) step
  exact (RunsOut.jump fun _ => steps_aggPlainPergroupNullcheck setoff).seq (.inner step)

lemma genTransCalls_runs (nullcheck : Bool) (p : PerTrans) (transno : Nat) :
    ∀ n setno setoff : Nat, RunsThrough w llvm 0 (genTransCalls nullcheck p transno n setno setoff)
  | 0, _, _ => .nop
  | n + 1, setno, setoff =>
    (genTransCall_runs keeps nullcheck p transno setno setoff).seq
      (genTransCalls_runs nullcheck p transno n (setno + 1) (setoff + 1))

lemma genTransitions_runs (phase : AggPhase) (p : PerTrans) (transno : Nat) :
    RunsThrough w llvm 0 (genTransitions phase p transno) :=
  (RunsThrough.ite (genTransCalls_runs keeps _ p transno _ 0 0) .nop).seq
    (.ite (genTransCalls_runs keeps _ p transno _ 0 _) .nop)

lemma genAggFilter_runs (isCombine : Bool) (p : PerTrans) (wf : optionWellFormed p.aggfilter = true) :
    RunsOut w llvm 0 (genAggFilter setup isCombine p) := by
  unfold genAggFilter
  cases filter : p.aggfilter with
  | none => exact .nop
  | some aggfilter =>
    rw [filter] at wf
    apply RunsOut.ite .nop
    exact (RunsOut.inner (gen_runs keeps setup wf .result nofun)).seq
      (.jump fun work => steps_jumpIfNotTrue work.result)

lemma genCombineArg_runs (p : PerTrans) (transno : Nat) (source : Node) (wf : source.wellFormed = true) :
    RunsOut w llvm 0 (genCombineArg setup p transno source) := by
  unfold genCombineArg
  cases p.deserialfn with
  | none => exact .inner (gen_runs keeps setup wf (.trans transno 1) nofun)
  | some deserialfn =>
    have clean {h : Nat} {D : Set Cell} (work : Work 0 h D) :
        ∀ c ∈ [Cell.deserial transno 0, .deserial transno 1], c ∉ D :=
      List.forall_mem_cons.mpr ⟨work.clean nofun, List.forall_mem_singleton.mpr (work.clean nofun)⟩
    apply (RunsOut.inner ((gen_runs keeps setup wf (.deserial transno 0) nofun).seq (.store _ _))).seq
    refine RunsOut.ite (.jump fun work => ?_) (.inner (.step fun work => ?_))
    · refine (steps_aggDeserialize keeps true (clean work)).weaken ⟨fun _ _ agree => ?_, ?_, ?_⟩
      · exact agree.mono fun c inside => inside.1
      · exact fun _ _ _ => id
      · exact fun _ _ => id
    · exact (steps_aggDeserialize_plain keeps (clean work)).mono fun c inside => inside.1

lemma genAggArgs_runs (isCombine : Bool) (p : PerTrans) (transno : Nat) (wf : listWellFormed p.args = true) :
    RunsOut w llvm 0 (genAggArgs setup isCombine p transno) := by
  unfold genAggArgs
  apply RunsOut.ite
  · cases args : p.args with
    | nil => exact .nop
    | cons source rest =>
      rw [args, listWellFormed, Bool.and_eq_true] at wf
      exact genCombineArg_runs keeps setup p transno source wf.1
  · refine .inner (.array keeps setup p.args wf _ fun c member => placed_top rfl ?_)
    exact targets_old p transno c member

omit keeps in
lemma steps_strictCheck (isCombine : Bool) (p : PerTrans) (transno : Nat) {h : Nat} {D : Set Cell}
    (work : Work 0 h D) : StepsOut w llvm (.aggStrictInputCheck (p.strictCells isCombine transno)) D := by
  apply steps_aggStrictInputCheck
  unfold PerTrans.strictCells
  split
  · exact inputs_clean work
  · split
    · exact List.forall_mem_singleton.mpr work.result
    · exact sortCells_clean work

lemma genTrans_runs (phase : AggPhase) (p : PerTrans) (transno : Nat) (wf : p.wellFormed = true) :
    RunsThrough w llvm 0 (genTrans setup phase p transno) := by
  simp only [PerTrans.wellFormed, Bool.and_eq_true] at wf
  apply RunsOut.block
  apply (genAggFilter_runs keeps setup phase.isCombine p wf.2).seq
  apply (genAggArgs_runs keeps setup phase.isCombine p transno wf.1).seq
  refine RunsOut.seq (.ite (.jump (steps_strictCheck phase.isCombine p transno)) .nop) ?_
  exact .inner (genTransitions_runs keeps phase p transno)

lemma genTransValues_runs (phase : AggPhase) : ∀ (pertrans : List PerTrans) (transno : Nat),
    pertrans.all PerTrans.wellFormed = true → RunsThrough w llvm 0 (genTransValues setup phase pertrans transno)
  | [], _, _ => .nop
  | p :: rest, transno, wf => by
    simp only [List.all_cons, Bool.and_eq_true] at wf
    exact (genTrans_runs keeps setup phase p transno wf.1).seq (genTransValues_runs phase rest (transno + 1) wf.2)

/-! ## Equality of groups -/

/-- The columns of both tuples go into cells of their own and are compared. -/
lemma genGroupColumn_runs (col : GroupColumn) : RunsThrough w llvm 0 (genGroupColumn col) := by
  intro h D work
  have placed : Placed 0 .top .result := placed_top rfl nofun
  have entry : Entry false false .top .result h D := placed.entry work
  refine Runs.palloc (Runs.andThen ((Runs.step (steps_var _ _)).weaken diff_sub) (Runs.andThen ((Runs.step
    (steps_var _ _)).weaken diff_sub) (Runs.weaken (Runs.step (steps_notDistinct keeps ?_)) diff_sub))) subset_dirty
  exact entry.clean_later (n := 2) (Onward.trans (.behind fun _ => id) (.behind fun _ => id))

lemma genGroupColumns_runs : ∀ cols : List GroupColumn, RunsOut w llvm 0 (genGroupColumns cols)
  | [] => .nop
  | col :: rest => by
    apply (RunsOut.inner (genGroupColumn_runs keeps col)).seq
    apply (RunsOut.jump fun work => steps_qual work.result).seq
    exact genGroupColumns_runs rest

/-! ## All programs -/

omit keeps in
lemma makeAndsExplicit_wellFormed : ∀ conditions : List Node, listWellFormed conditions = true →
    (makeAndsExplicit conditions).wellFormed = true
  | [], _ => rfl
  | [e], wf => by
    rw [listWellFormed, listWellFormed, Bool.and_true] at wf
    exact wf
  | e :: second :: rest, wf => by
    have counted : BoolOp.and.asserts (e :: second :: rest).length = true := by simp [BoolOp.asserts]
    show (Node.boolExpr .and (e :: second :: rest)).wellFormed = true
    rw [Node.wellFormed, counted, wf]
    rfl

lemma Source.gen_runs {src : Source} (wf : src.wellFormed = true) : RunsThrough w llvm src.heap (src.gen setup) := by
  cases src with
  | expr node => exact (genSlots_runs setup _).seq (Compiler.gen_runs keeps setup wf .result nofun)
  | qual conditions => exact (genSlots_runs setup _).seq (genQualArgs_runs keeps setup conditions wf).block
  | check conditions =>
    have made := makeAndsExplicit_wellFormed conditions wf
    exact (genSlots_runs setup _).seq (Compiler.gen_runs keeps setup made .result nofun)
  | element elemexpr =>
    have placed : Placed 1 { caseval := some (.work 0), domainval := none } .result := by
      refine ⟨nofun, ?_, nofun, nofun⟩
      rintro c (⟨_, ⟨⟩⟩ | never)
      · exact older_work (Nat.lt_succ_self 0)
      · nomatch never
    exact RunsThrough.nop.seq (.expr keeps setup wf placed)
  | projection targetList junk inputDesc =>
    exact (genSlots_runs setup _).seq (genTargets_runs keeps setup junk inputDesc targetList wf)
  | aggTrans phase pertrans =>
    exact (genSlots_runs setup _).seq (genTransValues_runs keeps setup phase pertrans 0 wf)
  | groupingEqual lvirtual rvirtual cols =>
    apply ((genFetch_runs lvirtual .inner _).seq (genFetch_runs rvirtual .outer _)).seq
    exact (genGroupColumns_runs keeps cols.reverse).block

/-- **The same outcome with both executors**: for every program of the expression compiler
that is built from well-formed trees, every world and every state, provided argument records
survive `llvm.lifetime.end` and the datums that the run meets have the types that both
executors rely on. -/
theorem build_sameOutcome (src : Source) (built : src.build setup = some st) (wf : src.wellFormed = true) (m : Machine)
    (typed : Admissible (Op.typed w) (interpStep w) st.steps m) : SameOutcome w llvm st.steps m :=
  (Source.gen_runs keeps setup wf).sameOutcome (build_isProgram setup built).steps m typed

end Programs

/-! ## What is needed -/

/-- The value of a run that finishes. -/
def resultOf : Outcome Machine Raised → Option SqlValue
  | .finished m => some (m.mem .result).sql
  | _ => none

lemma SameOutcome.resultOf_eq {w : World} {llvm : Llvm} {steps : List Step} {m : Machine}
    (same : SameOutcome w llvm steps m) :
    resultOf (execInterpExpr w steps m) = resultOf (runCompiledExpr w llvm steps m) := by
  rcases same with ⟨t, t', ran, ran', ended⟩ | ⟨raised, failed, failed'⟩
  · rw [ran, ran']
    exact congrArg some ended.result
  · rw [failed, failed']

/-- Boolean datums are 0 or 1 where AND, OR and NULLIF look at them. -/
def Op.boolTyped (w : World) (op : Op) (m : Machine) : Bool :=
  match op with
  | .boolStep _ _ res _ => isBoolean (m.mem res)
  | .nullif _ f => anyArgNull m f.args || returns w f m isBoolean
  | _ => true

/-- A guard stopped the run. -/
def stopped {σ ε : Type} : Outcome σ (Option ε) → Bool
  | .failed none => true
  | _ => false

lemma admissible_of_not_stopped {ok : Op → Machine → Bool} {exec : Op → Machine → Flow Machine Raised}
    {prog : List Step} {m : Machine} (runs : stopped (run (guarded ok exec) prog prog.length 0 m) = false) :
    Admissible ok exec prog m := by
  intro failed
  rw [failed] at runs
  cases runs

section Samples

/-- Memory is kept, as the emitted code expects. -/
def keepingLlvm : Llvm where
  lifetimeEnd _ mem := mem
  elsewhere _ _ _ _ := rfl

/-- Memory whose lifetime has ended reads as zero. -/
def clearingLlvm : Llvm where
  lifetimeEnd cells mem c := if c ∈ cells then { value := 0, isnull := false } else mem c
  elsewhere _ _ _ out := if_neg out

def btint4cmp : Func where
  funcid := 351
  funcname := "btint4cmp"
  inputcollid := 0
  executable := true
  fnStrict := true
  fnRetset := false
  fnStats := 2

/-- Two integers are compared; `equal` is what the function returns for equal ones. -/
def rankingWorld (equal : Datum) : World where
  answer _ c := match c with
    | .function f [some a, some b] =>
      .ok [{ value := if f.funcid = btint4cmp.funcid then (if a = b then equal else BitVec.ofInt 64 (-1))
               else boolGetDatum (a == b)
             isnull := false }]
    | .helper (.fieldStoreDeForm _) _ => .ok [{ value := 1, isnull := false }]
    | .helper (.fieldStoreForm _) [field] => .ok [{ value := field.getD 0, isnull := field.isNone }]
    | _ => .error "not called"
  caseValue := nullDatum
  domainValue := nullDatum
  aggValue _ := nullDatum

/-- 2³²: the low half is zero. -/
def wideZero : Datum := BitVec.ofNat 64 4294967296

def intConst (n : Nat) : Node := .const { value := BitVec.ofNat 64 n, isnull := false }

/-- `(1, 2) < (1, 3)`. -/
def rowSample : Source :=
  let oper : RowOper := { proc := btint4cmp, lefttype := 23, righttype := 23, opfamily := 1976 }
  .expr (.rowCompareExpr .lt [.mk oper (intConst 1) (intConst 1), .mk oper (intConst 2) (intConst 3)])

/-- `NULLIF(x, y)` of two columns. -/
def nullIfSample : Source :=
  .expr (.nullIfExpr int4eq [.var { varno := .scan, varattno := 1, vartype := 23 },
    .var { varno := .scan, varattno := 2, vartype := 23 }])

/-- A field becomes `NULL AND true AND field IS NOT NULL`: the old value is read where the
new one is computed, after the cell was written. -/
def fieldSample : Source :=
  .expr (.fieldStore 1 1 (.const nullDatum)
    [.boolExpr .and [.const nullDatum, intConst 1, .nullTest false false .caseTestExpr]] [1])

/-- Column `i` of every slot holds `i + 1`. -/
def countingMachine : Machine where
  mem _ := nullDatum
  slots _ := { nvalid := 2, values := fun i => { value := BitVec.ofNat 64 (i + 1), isnull := false } }
  resultslot _ := nullDatum
  pergroups _ := none
  trace := []

/-- The steps of a program; none where there is nothing to evaluate. -/
def Source.steps (src : Source) : List Step := ((src.build sampleSetup).map ExprState.steps).getD []

lemma keepingLlvm_keeps : keepingLlvm.Keeps := fun _ _ => rfl

lemma not_sameOutcome {w : World} {llvm : Llvm} {steps : List Step} {m : Machine}
    (differ : resultOf (execInterpExpr w steps m) ≠ resultOf (runCompiledExpr w llvm steps m)) :
    ¬ SameOutcome w llvm steps m :=
  fun same => differ same.resultOf_eq

theorem row_sameOutcome : SameOutcome (rankingWorld 0) keepingLlvm rowSample.steps countingMachine ∧
      resultOf (execInterpExpr (rankingWorld 0) rowSample.steps countingMachine) = some (some 1) := by
  refine ⟨build_sameOutcome keepingLlvm_keeps sampleSetup rowSample rfl (by decide +kernel) countingMachine ?_, ?_⟩
  · exact admissible_of_not_stopped (by decide +kernel)
  · decide +kernel

/-- Three programs that come out differently. A comparison function returns 2³² for equal
integers: the interpreter looks at the low half and goes on to the next column, the emitted
code tests all bits and ends with the first one. NULLIF of different integers returns what
`llvm.lifetime.end` left of its first argument. A field whose old value is read after the
cell was written is computed from what an AND left there. -/
theorem outcomes_differ : (rowSample.wellFormed = true ∧ keepingLlvm.Keeps ∧
      Admissible (Op.boolTyped (rankingWorld wideZero)) (interpStep (rankingWorld wideZero)) rowSample.steps
        countingMachine ∧
      ¬ SameOutcome (rankingWorld wideZero) keepingLlvm rowSample.steps countingMachine) ∧
    (nullIfSample.wellFormed = true ∧
      Admissible (Op.typed (rankingWorld 0)) (interpStep (rankingWorld 0)) nullIfSample.steps countingMachine ∧
      ¬ SameOutcome (rankingWorld 0) clearingLlvm nullIfSample.steps countingMachine) ∧
    (Admissible (Op.typed (rankingWorld 0)) (interpStep (rankingWorld 0)) fieldSample.steps countingMachine ∧
      ¬ SameOutcome (rankingWorld 0) keepingLlvm fieldSample.steps countingMachine) := by
  refine ⟨⟨by decide +kernel, keepingLlvm_keeps, ?_, ?_⟩, ⟨by decide +kernel, ?_, ?_⟩, ?_, ?_⟩
  · exact admissible_of_not_stopped (by decide +kernel)
  · exact not_sameOutcome (by decide +kernel)
  · exact admissible_of_not_stopped (by decide +kernel)
  · exact not_sameOutcome (by decide +kernel)
  · exact admissible_of_not_stopped (by decide +kernel)
  · exact not_sameOutcome (by decide +kernel)

end Samples

end Hex.Compiler
