/-
# Compiler.ProgramRun — what the program of a builder does

A program deforms the slots that it reads and then runs its body. `Source.deform` is the
first part as an evaluation; the lemmas of this module reduce a run of the flat program to

* `Source.gen_deformed`: the body's code on the machine with the deformed slots, and
* `execInterpExpr_next`, `execInterpExpr_fail`: how the program ends when that code runs
  through or raises an error.
-/
import Hex.Compiler.SqlOutcome
import Hex.Compiler.Deform

namespace Hex.Compiler

open Theory.BlockCode

/-! ## Deforming -/

def getSomeAttrs (w : World) (slot : SlotName) (lastVar : Nat) (slots : SlotName → Slot) :
    Eval (SlotName → Slot) :=
  if (slots slot).nvalid < lastVar then
    Eval.call w (.getSomeAttrs slot lastVar) >>= fun ds => pure (Function.update slots slot
      { nvalid := lastVar, values := fun i => ds.getD i ((slots slot).values i) })
  else pure slots

def deformSlot (w : World) (virtual : Bool) (slot : SlotName) (lastVar : Nat) (slots : SlotName → Slot) :
    Eval (SlotName → Slot) :=
  if virtual then pure slots else getSomeAttrs w slot lastVar slots

lemma deformSlot_zero (w : World) (virtual : Bool) (slot : SlotName) (slots : SlotName → Slot) :
    deformSlot w virtual slot 0 slots = pure slots := by
  cases virtual <;> rfl

/-- The slots as a program deforms them before it reads them. -/
def Source.deform (w : World) (setup : Setup) (src : Source) (slots : SlotName → Slot) : Eval (SlotName → Slot) := do
  let slots ← deformSlot w (src.virtual setup .inner) .inner (src.last .inner) slots
  let slots ← deformSlot w (src.virtual setup .outer) .outer (src.last .outer) slots
  deformSlot w (src.virtual setup .scan) .scan (src.last .scan) slots

def Machine.deformed (m : Machine) (slots : SlotName → Slot) (trace : List Call) : Machine :=
  { m with slots := slots, trace := trace }

/-- The result of code that deforms slots follows the evaluation. -/
def DeformEnds (m : Machine) (answer : Answer (SlotName → Slot)) (r : Result Machine Raised) : Prop :=
  match answer with
  | .value slots trace => r = .next (m.deformed slots trace)
  | .raised e => r = .fail e
  | .notBoolean => True

/-- Code that does nothing but deform slots. -/
def Deforms (w : World) (g : Gen 0) (f : (SlotName → Slot) → Eval (SlotName → Slot)) : Prop :=
  ∀ (h : Nat) (m : Machine), DeformEnds m (f m.slots m.trace) (eval (interpStep w) (g.piece h).code m)

namespace Deforms

variable {w : World} {a b : Gen 0} {f g : (SlotName → Slot) → Eval (SlotName → Slot)}

lemma nop : Deforms w .nop pure := fun _ _ => rfl

lemma fetch (slot : SlotName) (lastVar : Nat) :
    Deforms w (.step (.fetchSome slot lastVar)) (getSomeAttrs w slot lastVar) := by
  intro h m
  have step : interpStep w (.fetchSome slot lastVar) m = slotGetsomeattrs w slot lastVar m := rfl
  unfold slotGetsomeattrs at step
  unfold getSomeAttrs
  by_cases short : (m.slots slot).nvalid < lastVar
  · rw [if_pos short] at step ⊢
    unfold Machine.call at step
    change DeformEnds m (Eval.bind (Eval.call w _) _ m.trace) _
    simp only [Eval.bind, Eval.call]
    cases answered : w.answer m.trace (.getSomeAttrs slot lastVar) with
    | error message =>
      rw [answered] at step
      change eval (interpStep w) _ m = _
      simp [Gen.step, Gen.jump, eval, step]
    | ok ds =>
      rw [answered] at step
      exact eval_step_next step
  · rw [if_neg short] at step ⊢
    exact eval_step_next step

lemma congr (deforms : Deforms w a f) (same : ∀ slots, f slots = g slots) : Deforms w a g :=
  fun h m => same m.slots ▸ deforms h m

lemma seq (first : Deforms w a f) (second : Deforms w b g) : Deforms w (a.seq b) (fun slots => f slots >>= g) := by
  intro h m
  have ran := first h m
  change DeformEnds m (Eval.bind (f m.slots) g m.trace)
    (eval (interpStep w) (.seq (a.piece h).code (b.piece (a.piece h).heap).code) m)
  simp only [Eval.bind]
  cases answered : f m.slots m.trace with
  | value slots trace =>
    rw [answered] at ran
    change eval (interpStep w) _ m = .next (m.deformed slots trace) at ran
    simp only [eval, ran]
    exact second _ (m.deformed slots trace)
  | raised e =>
    rw [answered] at ran
    change eval (interpStep w) _ m = .fail e at ran
    change eval (interpStep w) _ m = .fail e
    simp only [eval, ran]
  | notBoolean => trivial

lemma slot (virtual : Bool) (slot : SlotName) (lastVar : Nat) :
    Deforms w (genFetch virtual slot lastVar) (deformSlot w virtual slot lastVar) := by
  cases virtual with
  | true => exact nop
  | false => exact fetch slot lastVar

end Deforms

lemma genSlot_deforms (w : World) (setup : Setup) (slot : SlotName) (lastVar : Nat) :
    Deforms w (genSlot setup slot lastVar) (deformSlot w (setup.alwaysVirtual slot) slot lastVar) := by
  unfold genSlot
  by_cases reads : lastVar > 0
  · rw [if_pos reads]
    exact Deforms.slot _ slot lastVar
  · rw [if_neg reads, Nat.eq_zero_of_not_pos reads]
    exact Deforms.nop.congr fun slots => (deformSlot_zero w _ slot slots).symm

lemma genSlots_deforms (w : World) (setup : Setup) (info : LastAttnumInfo) :
    Deforms w (genSlots setup info) (fun slots => do
      let slots ← deformSlot w (setup.alwaysVirtual .inner) .inner info.lastInner slots
      let slots ← deformSlot w (setup.alwaysVirtual .outer) .outer info.lastOuter slots
      deformSlot w (setup.alwaysVirtual .scan) .scan info.lastScan slots) :=
  (genSlot_deforms w setup .inner _).seq ((genSlot_deforms w setup .outer _).seq (genSlot_deforms w setup .scan _))

/-- The deforming steps of a program deform the slots of which it reads columns. -/
lemma Source.fetches_deforms (w : World) (setup : Setup) (src : Source) :
    Deforms w (src.fetches setup) (src.deform w setup) := by
  have slots (info : LastAttnumInfo) (same : ∀ slot, src.last slot = info.last slot)
      (virtual : ∀ slot, src.virtual setup slot = setup.alwaysVirtual slot) :
      Deforms w (genSlots setup info) (src.deform w setup) := by
    have code := genSlots_deforms w setup info
    unfold Source.deform
    simp only [same, virtual]
    exact code
  cases src with
  | expr node =>
    refine slots _ (fun slot => ?_) fun slot => rfl
    rw [walkList_eq, listVars, listVars, List.append_nil]
    rfl
  | qual | projection =>
    refine slots _ (fun slot => ?_) fun slot => rfl
    rw [walkList_eq]
    rfl
  | check conditions =>
    refine slots _ (fun slot => ?_) fun slot => rfl
    rw [walkList_eq, listVars, listVars, List.append_nil, makeAndsExplicit_vars]
    rfl
  | element elemexpr =>
    refine Deforms.nop.congr fun slots => ?_
    simp only [Source.deform, Source.last, deformSlot_zero, Eval.pure_bind]
  | aggTrans phase pertrans =>
    refine slots _ (fun slot => ?_) fun slot => rfl
    rw [walkPertrans_eq]
    rfl
  | groupingEqual lvirtual rvirtual cols =>
    refine ((Deforms.slot lvirtual .inner _).seq (Deforms.slot rvirtual .outer _)).congr fun slots => ?_
    simp only [Source.deform, Source.last, deformSlot_zero, Eval.bind_pure]
    rfl

lemma Source.fetches_heap (setup : Setup) (src : Source) (h : Nat) : ((src.fetches setup).piece h).heap = h := by
  have fetch (virtual : Bool) (slot : SlotName) (lastVar h : Nat) :
      ((genFetch virtual slot lastVar).piece h).heap = h := by cases virtual <;> rfl
  have slot (slot : SlotName) (lastVar h : Nat) : ((genSlot setup slot lastVar).piece h).heap = h := by
    unfold genSlot
    split
    · exact fetch _ slot lastVar h
    · rfl
  cases src with
  | element elemexpr => rfl
  | groupingEqual lvirtual rvirtual cols => simp only [Source.fetches, Gen.seq, fetch]
  | _ => simp only [Source.fetches, genSlots, Gen.seq, slot]

/-! ## Programs -/

section Program

variable {w : World} {setup : Setup} {src : Source} {m : Machine} {slots : SlotName → Slot} {α : Type}
  {F : Machine → Machine → Prop} {post : α → Machine → Prop} {out : Outcome Machine Raised}

lemma Source.gen_deformed {trace : List Call} (deformed : src.deform w setup m.slots m.trace = .value slots trace) :
    eval (interpStep w) ((src.gen setup).piece src.heap).code m =
      eval (interpStep w) ((src.body setup).piece src.heap).code (m.deformed slots trace) := by
  have ran := src.fetches_deforms w setup src.heap m
  rw [deformed] at ran
  change eval (interpStep w) _ m = .next (m.deformed slots trace) at ran
  simp only [Source.gen, Gen.seq, eval, ran, src.fetches_heap setup]

variable {st : ExprState}

/-- The program ends where its code runs through. -/
lemma execInterpExpr_next (built : src.build setup = some st) {m' : Machine}
    (ran : eval (interpStep w) ((src.gen setup).piece src.heap).code m = .next m') :
    execInterpExpr w st.steps m = .finished m' := by
  have done : eval (interpStep w) (src.program setup).code m = .done m' := by
    change eval (interpStep w) (.seq ((src.gen setup).piece src.heap).code _) m = _
    simp only [eval, ran]
    rfl
  rw [execInterpExpr, (build_isProgram setup built).steps, run_of_done done]

lemma execInterpExpr_fail (built : src.build setup = some st) {e : Raised}
    (ran : eval (interpStep w) ((src.gen setup).piece src.heap).code m = .fail e) :
    execInterpExpr w st.steps m = .failed e := by
  have failed : eval (interpStep w) (src.program setup).code m = .fail e := by
    change eval (interpStep w) (.seq ((src.gen setup).piece src.heap).code _) m = _
    simp only [eval, ran]
  rw [execInterpExpr, (build_isProgram setup built).steps, run_of_fail failed]

/-- The interpreter comes to the same end, or to the same error, as the code. -/
def EndsAs (w : World) (steps : List Step) (c : Code Op) (m : Machine) : Prop :=
  (∃ m', eval (interpStep w) c m = .done m' ∧ execInterpExpr w steps m = .finished m') ∨
    ∃ e, eval (interpStep w) c m = .fail e ∧ execInterpExpr w steps m = .failed e

/-- **The jumps of a program do what its blocks say.** -/
theorem execInterpExpr_blocks (built : src.build setup = some st) (w : World) (m : Machine) :
    EndsAs w st.steps (src.program setup).code m := by
  have labelled : ((src.gen setup).piece src.heap).code.Each fun i =>
      ∀ m j m', interpStep w i.op m = .jump j m' → j < i.labels.length :=
    Code.Each.imp (fun _ enough _ _ _ flow => Nat.lt_of_lt_of_le (interpStep_jump flow) enough)
      (src.gen_labelled setup src.heap)
  have within := eval_within m (src.program setup).closed ⟨labelled, fun _ _ _ flow => by cases flow⟩
  rw [EndsAs, execInterpExpr, (build_isProgram setup built).steps]
  cases result : eval (interpStep w) (src.program setup).code m with
  | done m' => exact Or.inl ⟨m', rfl, run_of_done result⟩
  | fail e => exact Or.inr ⟨e, rfl, run_of_fail result⟩
  | next m' =>
    -- `EEOP_DONE` does not go on
    change eval (interpStep w) (.seq ((src.gen setup).piece src.heap).code _) m = _ at result
    simp only [eval] at result
    cases ran : eval (interpStep w) ((src.gen setup).piece src.heap).code m <;> rw [ran] at result <;> cases result
  | exit k m' =>
    rw [result] at within
    exact absurd within (Nat.not_lt_zero k)
  | stuck =>
    rw [result] at within
    exact within.elim

theorem coalesceQual_blocks : ∃ st, coalesceQual.build sampleSetup = some st ∧
    EndsAs silentWorld st.steps (coalesceQual.program sampleSetup).code emptyMachine :=
  ⟨_, rfl, execInterpExpr_blocks rfl silentWorld emptyMachine⟩

/-- The outcome of a program follows an evaluation. -/
def OutcomeOf {α : Type} (F : Machine → Machine → Prop) (m : Machine) (answer : Answer α) (post : α → Machine → Prop)
    (out : Outcome Machine Raised) : Prop :=
  match answer with
  | .value a trace => ∃ m', out = .finished m' ∧ m'.trace = trace ∧ F m m' ∧ post a m'
  | .raised e => out = .failed e
  | .notBoolean => True

lemma OutcomeOf.finished {m m' : Machine} {answer : Answer α} (outcome : OutcomeOf F m answer post (.finished m'))
    (ends : answer ≠ .notBoolean) :
    ∃ a, answer = .value a m'.trace ∧ F m m' ∧ post a m' := by
  cases answer with
  | value a trace =>
    obtain ⟨m1, same, rfl, frame, held⟩ := outcome
    cases same
    exact ⟨a, rfl, frame, held⟩
  | raised e => cases outcome
  | notBoolean => exact absurd rfl ends

lemma OutcomeOf.finished_iff {m : Machine} {answer : Answer α} (outcome : OutcomeOf F m answer post out)
    (ends : answer ≠ .notBoolean) (last : List Call) :
    (∃ m', out = .finished m' ∧ m'.trace = last) ↔ ∃ a, answer = .value a last := by
  constructor
  · rintro ⟨m', rfl, rfl⟩
    obtain ⟨a, answered, _⟩ := outcome.finished ends
    exact ⟨a, answered⟩
  · rintro ⟨a, rfl⟩
    obtain ⟨m', finished, traced, _⟩ := outcome
    exact ⟨m', finished, traced⟩

lemma OutcomeOf.failed_iff {m : Machine} {answer : Answer α} (outcome : OutcomeOf F m answer post out)
    (ends : answer ≠ .notBoolean) (e : Raised) : out = .failed e ↔ answer = .raised e := by
  cases answer with
  | value a trace =>
    obtain ⟨m', rfl, _⟩ := outcome
    exact ⟨nofun, nofun⟩
  | raised e' =>
    have failed : out = .failed e' := outcome
    rw [failed, Outcome.failed.injEq, Answer.raised.injEq]
  | notBoolean => exact absurd rfl ends

/-- **A program follows the evaluation that its body computes on the deformed slots.** -/
theorem execInterpExpr_leadsTo {answer : Answer α} {trace : List Call} (built : src.build setup = some st)
    (deformed : src.deform w setup m.slots m.trace = .value slots trace)
    (ends : LeadsTo F (m.deformed slots trace) answer Through post
      (eval (interpStep w) ((src.body setup).piece src.heap).code (m.deformed slots trace))) :
    OutcomeOf F (m.deformed slots trace) answer post (execInterpExpr w st.steps m) := by
  cases answer with
  | notBoolean => trivial
  | raised e => exact execInterpExpr_fail built ((Source.gen_deformed deformed).trans ends)
  | value a trace =>
    obtain ⟨m', ran, traced, frame, held⟩ := ends
    exact ⟨m', execInterpExpr_next built ((Source.gen_deformed deformed).trans ran), traced, frame, held⟩

/-- **A program follows the deforming of its slots and the evaluation that its body computes on them.** -/
theorem execInterpExpr_outcome {x : (SlotName → Slot) → Eval α} (built : src.build setup = some st)
    (ends : ∀ slots trace, LeadsTo F (m.deformed slots trace) (x slots trace) Through post
      (eval (interpStep w) ((src.body setup).piece src.heap).code (m.deformed slots trace))) :
    OutcomeOf (fun _ _ => True) m ((src.deform w setup m.slots >>= x) m.trace) post (execInterpExpr w st.steps m) := by
  change OutcomeOf _ m (Eval.bind (src.deform w setup m.slots) x m.trace) post _
  simp only [Eval.bind]
  cases deformed : src.deform w setup m.slots m.trace with
  | value slots trace =>
    have outcome := execInterpExpr_leadsTo built deformed (ends slots trace)
    dsimp only
    cases answered : x slots trace with
    | value a last =>
      rw [answered] at outcome
      obtain ⟨m', finished, traced, _, held⟩ := outcome
      exact ⟨m', finished, traced, trivial, held⟩
    | raised e =>
      rw [answered] at outcome
      exact outcome
    | notBoolean => trivial
  | raised e =>
    have ran := src.fetches_deforms w setup src.heap m
    rw [deformed] at ran
    refine execInterpExpr_fail built ?_
    change eval (interpStep w) (.seq ((src.fetches setup).piece src.heap).code _) m = _
    change eval (interpStep w) ((src.fetches setup).piece src.heap).code m = .fail e at ran
    simp only [eval, ran]
  | notBoolean => trivial

/-- What the body relies on is in memory. -/
lemma Source.loaded_body (built : src.build setup = some st) (loaded : Loaded st.stores m)
    (slots : SlotName → Slot) (trace : List Call) :
    Loaded ((src.body setup).piece src.heap).constants (m.deformed slots trace) := by
  intro p member
  rw [(build_isProgram setup built).stores] at loaded
  refine loaded p ?_
  change p ∈ (((src.fetches setup).piece src.heap).stores ++
    ((src.body setup).piece ((src.fetches setup).piece src.heap).heap).stores) ++ []
  rw [src.fetches_heap setup, List.append_nil]
  exact List.mem_append_right _ (Piece.filled _ p member)

end Program

/-- **The program of an expression leaves the value of the expression.** -/
theorem execInitExpr_outcome {w : World} {setup : Setup} {n : Node} {m : Machine} {slots : SlotName → Slot}
    {trace : List Call} (proper : n.proper = true)
    (deformed : (Source.expr n).deform w setup m.slots m.trace = .value slots trace)
    (loaded : Loaded (execInitExpr setup n).stores m) :
    ∃ W, OutcomeOf (Frame W) (m.deformed slots trace) (n.value w slots setup (.top w) trace)
      (fun v m' => (m'.mem .result).sql = v) (execInterpExpr w (execInitExpr setup n).steps m) := by
  have built : (Source.expr n).build setup = some (execInitExpr setup n) := rfl
  have body := n.computes_top (w := w) proper (Source.loaded_body built loaded slots trace)
    ((Source.expr n).body_relies setup 0)
  exact ⟨_, execInterpExpr_leadsTo built deformed body⟩

/-- Functions of two arguments compare them, and a value is read-only as it is. -/
def keepingWorld : World where
  answer _ c := match c with
    | .function _ [some a, some b] => .ok [{ value := boolGetDatum (a == b), isnull := false }]
    | .makeReadOnly d => .ok [{ value := d, isnull := false }]
    | _ => .error "not called"
  caseValue := nullDatum
  domainValue := nullDatum
  aggValue _ := nullDatum

lemma keepingWorld_keeps : KeepsReadOnly keepingWorld := fun _ _ => ⟨_, rfl, rfl⟩

end Hex.Compiler
