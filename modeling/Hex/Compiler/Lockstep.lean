/-
# Compiler.Lockstep — the interpreter and the emitted code, opcode by opcode

There is one lemma for each opcode: which cells must agree before the step, and which
do afterwards. A jump is taken by both or by neither, except behind the last argument
of an AND or OR: there the emitted code jumps to the next step where the interpreter
goes on to it.
-/
import Hex.Compiler.Agree

namespace Hex.Compiler

open Theory.BlockCode

/-! ## Steps -/

/-- From states that agree outside of `D`, both do the same for the step. -/
def StepsTo (w : World) (llvm : Llvm) (op : Op) (D : Set Cell) (labels : List Nat) (Q : Post Machine Machine) :
    Prop :=
  ∀ m m', Agree D m m' → op.typed w m = true → (interpStep w op m).Related labels Q (emittedStep w llvm op m')

/-- Both go on to the next step, and agree outside of `D'` there. -/
abbrev StepsOn (w : World) (llvm : Llvm) (op : Op) (D : Set Cell) (labels : List Nat) (D' : Set Cell) : Prop :=
  StepsTo w llvm op D labels (.through (Agree D'))

/-- Both go on, or both leave the innermost block. -/
abbrev StepsOut (w : World) (llvm : Llvm) (op : Op) (D : Set Cell) : Prop :=
  StepsTo w llvm op D [0] (.leaving (Agree D) (Agree D))

section Steps

variable {w : World} {llvm : Llvm} {D : Set Cell} {labels : List Nat} {res : Cell} {src : Option Cell} {f : FuncCall}
  {m m' : Machine} {d : NullableDatum} {t : TransCall}

lemma steps_var (slot : SlotName) (attnum : Nat) : StepsOn w llvm (.var res slot attnum) D labels (D \ {res}) := by
  intro m m' agree _
  refine ⟨_, congrArg Flow.next (storeResult_eq m' res _), agree.set ?_⟩
  rw [agree.slots]

lemma steps_const (con : NullableDatum) : StepsOn w llvm (.const res con) D labels (D \ {res}) :=
  fun _ m' agree _ => ⟨_, congrArg Flow.next (storeResult_eq m' res con), agree.set rfl⟩

lemma steps_aggref (aggno : Nat) : StepsOn w llvm (.aggref res aggno) D labels (D \ {res}) :=
  fun _ m' agree _ => ⟨_, congrArg Flow.next (storeResult_eq m' res _), agree.set rfl⟩

lemma steps_windowFunc (wfuncno : Nat) : StepsOn w llvm (.windowFunc res wfuncno) D labels (D \ {res}) :=
  fun _ m' agree _ => ⟨_, congrArg Flow.next (storeResult_eq m' res _), agree.set rfl⟩

lemma steps_caseTestVal (clean : ∀ c, src = some c → c ∉ D) :
    StepsOn w llvm (.caseTestVal res src) D labels (D \ {res}) := by
  intro m m' agree _
  cases src with
  | none => exact ⟨_, congrArg Flow.next (storeResult_eq m' res _), agree.set rfl⟩
  | some c => exact ⟨_, congrArg Flow.next (storeResult_eq m' res _), agree.set (agree.mem c (clean c rfl))⟩

lemma steps_domainTestVal (clean : ∀ c, src = some c → c ∉ D) :
    StepsOn w llvm (.domainTestVal res src) D labels (D \ {res}) := by
  intro m m' agree _
  cases src with
  | none => exact ⟨_, congrArg Flow.next (storeResult_eq m' res _), agree.set rfl⟩
  | some c => exact ⟨_, congrArg Flow.next (storeResult_eq m' res _), agree.set (agree.mem c (clean c rfl))⟩

lemma steps_nullTest (isNull : Bool) (clean : res ∉ D) : StepsOn w llvm (.nullTest res isNull) D labels D := by
  intro m m' agree _
  refine ⟨_, congrArg Flow.next (setValue_setNull m' res false _), agree.update ?_⟩
  rw [agree.isnull clean]
  cases (m'.mem res).isnull <;> cases isNull <;> rfl

lemma boolGetDatum_not (d : Datum) : boolGetDatum (!datumGetBool d) = if d = 0 then 1 else 0 := by
  by_cases zero : d = 0 <;> simp [datumGetBool, boolGetDatum, zero]

lemma steps_boolNotStep (clean : res ∉ D) : StepsOn w llvm (.boolNotStep res) D labels D := by
  intro m m' agree _
  refine ⟨_, congrArg Flow.next (setNull_setValue m' res _ _), agree.setValue clean fun null => ?_⟩
  rw [boolGetDatum_not, agree.value clean null]

lemma steps_boolTest (test : BoolTest) (clean : res ∉ D) : StepsOn w llvm (.boolTest res test) D labels D := by
  intro m m' agree _
  refine ⟨_, rfl, ?_⟩
  show Agree D (execBoolTest res test m) (emitBoolTest res test m')
  simp only [execBoolTest, emitBoolTest, agree.isnull clean]
  cases null : (m'.mem res).isnull with
  | true =>
    cases test <;> simp only [if_true, setNull_setValue] <;> exact agree.update rfl
  | false =>
    have value := agree.value clean null
    cases test <;> simp only [Bool.false_eq_true, if_false, value, boolGetDatum_not] <;> first | exact agree | skip
    all_goals exact agree.setValue clean fun _ => rfl

lemma steps_fetchSome (slot : SlotName) (lastVar : Nat) : StepsOn w llvm (.fetchSome slot lastVar) D labels D := by
  intro m m' agree _
  show (slotGetsomeattrs w slot lastVar m).Related labels _ (emitFetchSome w slot lastVar m')
  simp only [slotGetsomeattrs, emitFetchSome, agree.slots]
  by_cases valid : (m'.slots slot).nvalid < lastVar
  · rw [if_pos valid, if_neg (Nat.not_le.mpr valid)]
    apply related_call agree.trace
    intro ds _
    refine ⟨_, rfl, (agree.traced _).setSlot slot ?_⟩
    simp only [agree.slots]
  · rw [if_neg valid, if_pos (Nat.not_lt.mp valid)]
    exact ⟨m', rfl, agree⟩

lemma steps_assignVar (slot : SlotName) (attnum resultnum : Nat) :
    StepsOn w llvm (.assignVar slot attnum resultnum) D labels D := by
  intro m m' agree _
  refine ⟨_, rfl, agree.setResult resultnum ?_⟩
  rw [agree.slots]

lemma steps_assignTmp (resultnum : Nat) (clean : .result ∉ D) : StepsOn w llvm (.assignTmp resultnum) D labels D :=
  fun _ _ agree _ => ⟨_, rfl, agree.setResult resultnum (agree.mem .result clean)⟩

/-- `EEOP_ASSIGN_TMP_MAKE_RO`: of a NULL only the flag is stored by the emitted code. -/
lemma steps_assignTmpMakeRO (resultnum : Nat) (clean : .result ∉ D) :
    StepsOn w llvm (.assignTmpMakeRO resultnum) D labels D := by
  intro m m' agree _
  show (interpStep w (.assignTmpMakeRO resultnum) m).Related labels _ (emitAssignTmpMakeRO w resultnum m')
  simp only [interpStep, emitAssignTmpMakeRO, agree.isnull clean]
  cases null : (m'.mem .result).isnull with
  | true =>
    refine ⟨_, rfl, agree.setResult resultnum ?_⟩
    rw [sql_of_isnull (agree.isnull clean ▸ null)]
    rfl
  | false =>
    simp only [Bool.false_eq_true, if_false, if_true, agree.value clean null, makeReadOnly]
    apply related_call (by exact agree.trace)
    intro ds _
    refine ⟨_, rfl, ?_⟩
    have stored := (agree.traced (.makeReadOnly (m'.mem .result).value)).setResult resultnum
      (d := { value := (returned ds).value, isnull := false }) rfl
    simpa [Machine.setResult, Post.through] using stored

/-! ### Functions -/

lemma related_funcExpr (agree : Agree D m m') (clean : ∀ c ∈ f.args, c ∉ D)
    {Q : Post Machine Machine} (next : ∀ m m', Agree (D \ {res}) m m' → Q.next m m') :
    (execFuncExpr w res f m).Related labels Q (execFuncExpr w res f m') := by
  simp only [execFuncExpr, functionCallInvoke, agree.args clean]
  apply related_call agree.trace
  exact fun ds _ => ⟨_, rfl, next _ _ ((agree.traced _).set rfl)⟩

lemma emitFuncExpr_eq (keeps : llvm.Keeps) (f : FuncCall) (m : Machine) :
    emitFuncExpr w llvm res f m = execFuncExpr w res f m := by
  simp only [emitFuncExpr, buildV1Call_eq m keeps, storeResult_eq, execFuncExpr]

lemma steps_funcExpr (keeps : llvm.Keeps) (clean : ∀ c ∈ f.args, c ∉ D) :
    StepsOn w llvm (.funcExpr res f) D labels (D \ {res}) := by
  intro m m' agree _
  show (execFuncExpr w res f m).Related labels _ (emitFuncExpr w llvm res f m')
  rw [emitFuncExpr_eq keeps]
  exact related_funcExpr agree clean fun _ _ => id

/-- The emitted code of a strict function stores NULL first. -/
lemma steps_funcExprStrict (keeps : llvm.Keeps) (clean : ∀ c ∈ f.args, c ∉ D) (apart : res ∉ f.args) :
    StepsOn w llvm (.funcExprStrict res f) D labels (D \ {res}) := by
  intro m m' agree _
  show (execFuncExprStrict w res f m).Related labels _ (emitFuncExprStrict w llvm res f m')
  have args : (m'.setNull res true).args f.args = m'.args f.args := args_set m' res apart _
  have nulls : anyArgNull (m'.setNull res true) f.args = anyArgNull m f.args := by
    rw [anyArgNull_eq, anyArgNull_eq, args, agree.args clean]
  simp only [execFuncExprStrict, emitFuncExprStrict, emitCheckArgNulls_eq, nulls, emitFuncExpr_eq keeps]
  cases anyArgNull m f.args with
  | true => exact ⟨_, rfl, agree.set rfl⟩
  | false =>
    simp only [Bool.false_eq_true, if_false, execFuncExpr, functionCallInvoke, args, agree.args clean]
    apply related_call (by exact agree.trace)
    intro ds _
    refine ⟨_, rfl, ?_⟩
    have stored := (agree.traced (.function f.func (m'.args f.args))).set (c := res) (d := returned ds) rfl
    simpa [Machine.setNull, Machine.set, Post.through] using stored

lemma steps_funcExprFusage (clean : ∀ c ∈ f.args, c ∉ D) :
    StepsOn w llvm (.funcExprFusage res f) D labels (D \ {res}) :=
  fun _ _ agree _ => related_funcExpr agree clean fun _ _ => id

lemma steps_funcExprStrictFusage (clean : ∀ c ∈ f.args, c ∉ D) :
    StepsOn w llvm (.funcExprStrictFusage res f) D labels (D \ {res}) := by
  intro m m' agree _
  show (execFuncExprStrict w res f m).Related labels _ (execFuncExprStrict w res f m')
  simp only [execFuncExprStrict, agree.anyArgNull clean]
  cases anyArgNull m' f.args with
  | true => exact ⟨_, rfl, agree.set rfl⟩
  | false => exact related_funcExpr agree clean fun _ _ => id

lemma steps_funcOpcode (keeps : llvm.Keeps) (setup : Setup) (clean : ∀ c ∈ f.args, c ∉ D) (apart : res ∉ f.args) :
    StepsOn w llvm (funcOpcode setup res f) D labels (D \ {res}) := by
  simp only [funcOpcode]
  split
  · split
    · exact steps_funcExprStrict keeps clean apart
    · exact steps_funcExpr keeps clean
  · split
    · exact steps_funcExprStrictFusage clean
    · exact steps_funcExprFusage clean

lemma related_distinct (keeps : llvm.Keeps) (negate : Bool) (agree : Agree D m m') (clean : ∀ c ∈ f.args, c ∉ D) :
    (execDistinct w negate res f m).Related labels (.through (Agree (D \ {res}))) (emitDistinct w llvm negate res f m') := by
  rcases eq : f.args with _ | ⟨arg0, _ | ⟨arg1, _ | ⟨arg2, rest⟩⟩⟩ <;> simp only [execDistinct, emitDistinct, eq]
  case cons.cons.nil =>
    rw [eq] at clean
    have null0 := agree.isnull (clean arg0 (by simp))
    have null1 := agree.isnull (clean arg1 (by simp))
    have args : m.args f.args = m'.args f.args := agree.args (eq ▸ clean)
    rw [null0, null1]
    cases (m'.mem arg0).isnull <;> cases (m'.mem arg1).isnull
    case false.false =>
      simp only [Bool.or_self, Bool.and_self, Bool.false_eq_true, if_false, buildV1Call_eq m' keeps,
        functionCallInvoke, args]
      apply related_call agree.trace
      intro ds _
      refine ⟨_, congrArg Flow.next (setNull_setValue _ res _ _), (agree.traced _).set ?_⟩
      cases negate <;> simp [boolGetDatum_not]
    all_goals
      refine ⟨_, congrArg Flow.next (setNull_setValue m' res _ _), agree.set ?_⟩
      cases negate <;> rfl
  all_goals rw [agree.trace]; rfl

lemma steps_distinct (keeps : llvm.Keeps) (clean : ∀ c ∈ f.args, c ∉ D) :
    StepsOn w llvm (.distinct res f) D labels (D \ {res}) :=
  fun _ _ agree _ => related_distinct keeps true agree clean

lemma steps_notDistinct (keeps : llvm.Keeps) (clean : ∀ c ∈ f.args, c ∉ D) :
    StepsOn w llvm (.notDistinct res f) D labels (D \ {res}) :=
  fun _ _ agree _ => related_distinct keeps false agree clean

lemma datumGetBool_of_isBoolean (boolean : isBoolean d = true) (notNull : d.isnull = false) :
    datumGetBool d.value = true ↔ d.value = 1 := by
  simp only [isBoolean, notNull, Bool.false_or, Bool.or_eq_true, beq_iff_eq] at boolean
  rcases boolean with zero | one
  · simp [datumGetBool, zero]
  · simp [datumGetBool, one]

/-- `EEOP_NULLIF`: the emitted code compares the result of the comparison with 1. -/
lemma steps_nullif (keeps : llvm.Keeps) (clean : ∀ c ∈ f.args, c ∉ D) :
    StepsOn w llvm (.nullif res f) D labels (D \ {res}) := by
  intro m m' agree typed
  show (execNullif w res f m).Related labels _ (emitNullif w llvm res f m')
  simp only [Op.typed] at typed
  rcases eq : f.args with _ | ⟨arg0, _ | ⟨arg1, _ | ⟨arg2, rest⟩⟩⟩ <;> simp only [execNullif, emitNullif, eq]
  case cons.cons.nil =>
    have args : m.args f.args = m'.args f.args := agree.args clean
    have clean0 : arg0 ∉ D := clean arg0 (by simp [eq])
    have null0 := agree.isnull clean0
    have null1 := agree.isnull (clean arg1 (by simp [eq]))
    have same0 := agree.mem arg0 clean0
    rw [null0, null1]
    cases isnull0 : (m'.mem arg0).isnull <;> cases isnull1 : (m'.mem arg1).isnull
    case false.false =>
      have boolean : returns w f m isBoolean = true := by
        simpa [anyArgNull, eq, null0, null1, isnull0, isnull1] using typed
      simp only [returns, args] at boolean
      simp only [Bool.not_false, Bool.and_self, Bool.or_self, Bool.false_eq_true, if_false, if_true,
        buildV1Call_eq m' keeps, functionCallInvoke, args]
      apply related_call agree.trace
      intro ds answered
      rw [answered] at boolean
      by_cases equal : (returned ds).isnull = false ∧ (returned ds).value = 1
      · have isTrue := (datumGetBool_of_isBoolean boolean equal.1).mpr equal.2
        rw [if_pos equal, if_pos (by simp [equal.1, isTrue])]
        refine ⟨_, rfl, ?_⟩
        rw [setNull_setValue, set_setValue]
        exact (agree.traced _).set rfl
      · have isFalse : ¬ (!(returned ds).isnull && datumGetBool (returned ds).value) = true := by
          intro both
          simp only [Bool.and_eq_true, Bool.not_eq_true'] at both
          exact equal ⟨both.1, (datumGetBool_of_isBoolean boolean both.1).mp both.2⟩
        rw [if_neg equal, if_neg isFalse]
        refine ⟨_, congrArg Flow.next (setNull_setValue _ res _ _), (agree.traced _).set ?_⟩
        rw [← isnull0]
        exact same0
    all_goals
      refine ⟨_, congrArg Flow.next (setNull_setValue m' res _ _), agree.set ?_⟩
      rw [← isnull0]
      exact same0
  all_goals rw [agree.trace]; rfl

/-! ### AND and OR -/

/-- A boolean datum decides an AND or OR when it is the datum that the emitted code looks for. -/
lemma decides_iff_stop (boolop : AndOr) (boolean : isBoolean d = true)
    (notNull : d.isnull = false) : boolop.decides d.value = true ↔ d.value = boolop.stop := by
  cases boolop with
  | or => exact datumGetBool_of_isBoolean boolean notNull
  | and => simp [AndOr.decides, AndOr.stop, datumGetBool]

section BoolStep

variable {boolop : AndOr} {anynull : Cell}

lemma emitBoolStep_eq {pos : StepPos} {m m0 : Machine}
    (cleared : (if pos = .first then m.set anynull { value := 0, isnull := false } else m) = m0) :
    emitBoolStep boolop pos res anynull m =
      if (m0.mem res).isnull then .next ((m0.setNull anynull true).set res { value := 0, isnull := true })
      else if (m0.mem res).value = boolop.stop then .jump 0 m0
      else if (m0.mem anynull).isnull then .next (m0.set res { value := 0, isnull := true })
      else .next m0 := by
  have same : (m0.setNull res (m0.mem res).isnull).setValue res (m0.mem res).value = m0 := by
    rw [setNull_setValue]
    simp [Machine.set]
  simp only [emitBoolStep, cleared, same, setNull_setValue]
  cases (m0.mem res).isnull with
  | true => simp
  | false =>
    simp only [Bool.false_eq_true, if_false]
    split
    · rfl
    · cases (m0.mem anynull).isnull <;> rfl

/-- The steps before the last one leave the result open; an argument that decides is left
in place. -/
lemma steps_boolStep {pos : StepPos} (notLast : pos ≠ .last) (clean : res ∉ D) (ne : anynull ≠ res) :
    StepsTo w llvm (.boolStep boolop pos res anynull) D [0] (.leaving (Agree (insert res D)) (Agree D)) := by
  intro m m' agree typed
  show (execBoolStep boolop pos res anynull m).Related [0] _ (emitBoolStep boolop pos res anynull m')
  have boolean : isBoolean (m.mem res) = true := typed
  obtain ⟨m0, m₀', cleared, cleared', agree0, kept⟩ : ∃ m0 m₀',
      (if pos = .first then m.set anynull { value := 0, isnull := false } else m) = m0 ∧
      (if pos = .first then m'.set anynull { value := 0, isnull := false } else m') = m₀' ∧
      Agree D m0 m₀' ∧ m0.mem res = m.mem res := by
    by_cases first : pos = .first
    · exact ⟨_, _, if_pos first, if_pos first, agree.update rfl, Machine.mem_set_ne m _ ne.symm⟩
    · exact ⟨_, _, if_neg first, if_neg first, agree, rfl⟩
  have step : execBoolStep boolop pos res anynull m = if (m0.mem res).isnull then .next (m0.setNull anynull true)
      else if boolop.decides (m0.mem res).value then .jump 0 m0 else .next m0 := by
    simp only [execBoolStep, cleared]
  rw [step, emitBoolStep_eq cleared', ← agree0.isnull clean]
  cases null : (m0.mem res).isnull with
  | true =>
    have noted : Agree D (m0.setNull anynull true) (m₀'.setNull anynull true) :=
      (agree0.setNull anynull).mono fun _ inside => inside.1
    refine ⟨_, rfl, Agree.weaken (noted.setRight ?_) res⟩
    rw [Machine.setNull, Machine.mem_set_ne m0 _ ne.symm]
    exact sql_of_isnull null
  | false =>
    have value := agree0.value clean (agree0.isnull clean ▸ null)
    have decided := decides_iff_stop boolop boolean (kept ▸ null)
    rw [← kept, value] at decided
    simp only [Bool.false_eq_true, if_false, value]
    by_cases stops : (m₀'.mem res).value = boolop.stop
    · rw [if_pos (decided.mpr stops), if_pos stops]
      exact ⟨_, 0, rfl, rfl, rfl, agree0⟩
    · rw [if_neg fun decides => stops (decided.mp decides), if_neg stops]
      split
      · exact ⟨_, rfl, agree0.spoilRight _⟩
      · exact ⟨_, rfl, agree0.weaken res⟩

/-- The last step: the emitted code jumps to the next step where the interpreter goes on to
it, and notes a NULL that nothing looks at. -/
lemma meets_boolStep_last (clean : res ∉ D) (cleanAny : anynull ∉ D) :
    Meets (Op.typed w) (interpStep w) (emittedStep w llvm) (Agree D)
      (.seq (.instr { op := .boolStep boolop .last res anynull, labels := [0] }) .skip)
      (Agree (insert anynull D)) := by
  apply Meets.instr rfl
  intro m m' agree typed
  have boolean : isBoolean (m.mem res) = true := typed
  have step : interpStep w (.boolStep boolop .last res anynull) m = if (m.mem res).isnull then .next m
      else if boolop.decides (m.mem res).value then .next m
      else if (m.mem anynull).isnull then .next (m.set res { value := 0, isnull := true })
      else .next m := rfl
  have step' : emittedStep w llvm (.boolStep boolop .last res anynull) m' =
      emitBoolStep boolop .last res anynull m' := rfl
  rw [step, step', emitBoolStep_eq (if_neg (by decide)), ← agree.isnull clean, ← agree.isnull cleanAny]
  cases null : (m.mem res).isnull with
  | true =>
    refine ⟨m, _, ?_, Or.inl rfl, Or.inl rfl⟩
    apply Agree.setRight (agree.spoilRight _)
    exact sql_of_isnull null
  | false =>
    have value := agree.value clean (agree.isnull clean ▸ null)
    have decided := decides_iff_stop boolop boolean null
    rw [value] at decided
    simp only [Bool.false_eq_true, if_false, value]
    by_cases stops : (m'.mem res).value = boolop.stop
    · rw [if_pos (decided.mpr stops), if_pos stops]
      exact ⟨m, m', agree.weaken anynull, Or.inl rfl, Or.inr rfl⟩
    · rw [if_neg fun decides => stops (decided.mp decides), if_neg stops]
      split
      · exact ⟨_, _, Agree.weaken (agree.update rfl) anynull, Or.inl rfl, Or.inl rfl⟩
      · exact ⟨_, _, agree.weaken anynull, Or.inl rfl, Or.inl rfl⟩

end BoolStep

/-! ### Jumps -/

lemma steps_jump : StepsTo w llvm .jump D [1]
    { next := fun _ _ => False, exit := fun k m m' => k = 1 ∧ Agree D m m', done := fun _ _ => False } :=
  fun _ _ agree _ => ⟨_, 1, rfl, rfl, rfl, agree⟩

lemma steps_jumpIfNull (clean : res ∉ D) : StepsOut w llvm (.jumpIfNull res) D := by
  intro m m' agree _
  simp only [interpStep, emittedStep, agree.isnull clean]
  cases (m'.mem res).isnull with
  | true => exact ⟨_, 0, rfl, rfl, rfl, agree⟩
  | false => exact ⟨_, rfl, agree⟩

lemma steps_jumpIfNotNull (clean : res ∉ D) : StepsOut w llvm (.jumpIfNotNull res) D := by
  intro m m' agree _
  simp only [interpStep, emittedStep, agree.isnull clean]
  cases (m'.mem res).isnull with
  | true => exact ⟨_, rfl, agree⟩
  | false => exact ⟨_, 0, rfl, rfl, rfl, agree⟩

/-- NULL or false: the test of `EEOP_QUAL` and `EEOP_JUMP_IF_NOT_TRUE`. -/
lemma notTrue_iff (agree : Agree D m m') (clean : res ∉ D) :
    ((m.mem res).isnull || !datumGetBool (m.mem res).value) = true ↔
      ((m'.mem res).isnull = true ∨ (m'.mem res).value = 0) := by
  rw [agree.isnull clean]
  cases null : (m'.mem res).isnull with
  | true => simp
  | false => simp [agree.value clean null, datumGetBool]

lemma steps_jumpIfNotTrue (clean : res ∉ D) : StepsOut w llvm (.jumpIfNotTrue res) D := by
  intro m m' agree _
  have same := notTrue_iff agree clean
  simp only [interpStep, emittedStep]
  by_cases notTrue : (m'.mem res).isnull = true ∨ (m'.mem res).value = 0
  · rw [if_pos (same.mpr notTrue), if_pos notTrue]
    exact ⟨_, 0, rfl, rfl, rfl, agree⟩
  · rw [if_neg fun is => notTrue (same.mp is), if_neg notTrue]
    exact ⟨_, rfl, agree⟩

lemma steps_qual (clean : res ∉ D) : StepsOut w llvm (.qual res) D := by
  intro m m' agree _
  have same := notTrue_iff agree clean
  simp only [interpStep, emittedStep, setNull_setValue]
  by_cases notTrue : (m'.mem res).isnull = true ∨ (m'.mem res).value = 0
  · rw [if_pos (same.mpr notTrue), if_pos notTrue]
    exact ⟨_, 0, rfl, rfl, rfl, agree.update rfl⟩
  · rw [if_neg fun is => notTrue (same.mp is), if_neg notTrue]
    exact ⟨_, rfl, agree⟩

/-! ### Other steps -/

lemma steps_makeReadonly {src : Cell} (clean : src ∉ D) :
    StepsOn w llvm (.makeReadonly res src) D labels (D \ {res}) := by
  intro m m' agree _
  simp only [interpStep, emittedStep, makeReadOnly, agree.isnull clean]
  cases null : (m'.mem src).isnull with
  | true => exact ⟨_, rfl, agree.setNull res⟩
  | false =>
    have value : ((m'.setNull res false).mem src).value = (m'.mem src).value := by
      by_cases eq : src = res
      · subst eq
        simp
      · rw [Machine.setNull, Machine.mem_set_ne m' _ eq]
    simp only [Bool.false_eq_true, if_false, agree.value clean null, value]
    apply related_call (by exact agree.trace)
    intro ds _
    refine ⟨_, rfl, ?_⟩
    have stored := (agree.traced (.makeReadOnly (m'.mem src).value)).set
      (c := res) (d := { value := (returned ds).value, isnull := false }) rfl
    simpa [Machine.setValue, Machine.setNull, Machine.set, Post.through] using stored

lemma steps_eval (helper : Helper) {reads : List Cell} (writes : List Cell) (clean : ∀ c ∈ reads, c ∉ D) :
    StepsOn w llvm (.eval helper reads writes) D labels {c | c ∈ D ∧ c ∉ writes} := by
  intro m m' agree _
  show (execEval w helper reads writes m).Related labels _ (execEval w helper reads writes m')
  simp only [execEval, agree.args clean]
  apply related_call agree.trace
  exact fun ds _ => ⟨_, rfl, (agree.traced _).setAll writes ds⟩

lemma steps_domainNotnull (typeName : String) (clean : res ∉ D) :
    StepsOn w llvm (.domainNotnull res typeName) D labels D := by
  intro m m' agree _
  show (execConstraintNotNull res typeName m).Related labels _ (execConstraintNotNull res typeName m')
  simp only [execConstraintNotNull, agree.isnull clean]
  cases (m'.mem res).isnull with
  | true => rw [agree.trace]; rfl
  | false => exact ⟨_, rfl, agree⟩

lemma steps_domainCheck {check : Cell} (typeName name : String) (clean : check ∉ D) :
    StepsOn w llvm (.domainCheck check typeName name) D labels D := by
  intro m m' agree _
  show (execConstraintCheck check typeName name m).Related labels _ (execConstraintCheck check typeName name m')
  simp only [execConstraintCheck, agree.isnull clean]
  cases null : (m'.mem check).isnull with
  | true => exact ⟨_, rfl, agree⟩
  | false =>
    rw [agree.value clean null, agree.trace]
    cases datumGetBool (m'.mem check).value with
    | true => exact ⟨_, rfl, agree⟩
    | false => rfl

lemma steps_sbsrefSubscript {sub : Cell} (helper : Helper) (isAssignment : Bool) (clean : sub ∉ D) :
    StepsOut w llvm (.sbsrefSubscript res sub helper isAssignment) D := by
  intro m m' agree _
  show (execSubscriptingRef w res sub helper isAssignment m).Related [0] _
    (execSubscriptingRef w res sub helper isAssignment m')
  have args : m.args [sub] = m'.args [sub] := agree.args (by simpa using clean)
  simp only [execSubscriptingRef, args]
  apply related_call agree.trace
  intro ds _
  simp only [agree.isnull clean]
  cases (m'.mem sub).isnull with
  | false => exact ⟨_, rfl, agree.traced _⟩
  | true =>
    cases isAssignment with
    | true => simp only [if_true, agree.trace]; rfl
    | false => exact ⟨_, 0, rfl, rfl, rfl, ((agree.traced _).setNull res).mono fun _ inside => inside.1⟩

lemma mem_setFirst {cells : List Cell} {c : Cell} (apart : c ∉ cells) (m : Machine) (d : NullableDatum) :
    (m.setFirst cells d).mem c = m.mem c := by
  cases cells with
  | nil => rfl
  | cons x rest => exact Machine.mem_set_ne m d fun eq => apart (eq ▸ List.mem_cons_self)

/-- The input function of `EEOP_IOCOERCE`; the emitted code has loaded the flag earlier. -/
lemma related_inputFunction {inp : FuncCall} (agree : Agree D m m') (clean : res ∉ D)
    (cleanIn : ∀ c ∈ inp.args.tail, c ∉ D) (str : Datum) {v_resnull : Bool} (flag : (m'.mem res).isnull = v_resnull) :
    (execInputFunction w res inp str m).Related labels (.through (Agree D))
      (emitInputFunction w res inp v_resnull str m') := by
  simp only [execInputFunction, emitInputFunction]
  by_cases skipped : inp.func.fnStrict = true ∧ str = 0
  · rw [if_pos skipped, if_neg (by simp [skipped.1, skipped.2])]
    exact ⟨_, rfl, agree⟩
  · have called : (!inp.func.fnStrict || str != 0) = true := by
      rw [Bool.or_eq_true, Bool.not_eq_true', bne_iff_ne]
      cases strict : inp.func.fnStrict with
      | false => exact Or.inl rfl
      | true => exact Or.inr fun zero => skipped ⟨strict, zero⟩
    rw [if_neg skipped, if_pos called]
    have same : NullableDatum.sql { value := str, isnull := (m.mem res).isnull } =
        NullableDatum.sql { value := str, isnull := v_resnull } := by rw [agree.isnull clean, flag]
    obtain ⟨agree1, args⟩ := agree.setFirst inp.args same cleanIn
    simp only [functionCallInvoke, args]
    apply related_call agree1.trace
    exact fun ds _ => ⟨_, rfl, (agree1.traced _).setValue clean fun _ => rfl⟩

lemma steps_ioCoerce {out inp : FuncCall} (clean : res ∉ D) (cleanOut : ∀ c ∈ out.args.tail, c ∉ D)
    (cleanIn : ∀ c ∈ inp.args.tail, c ∉ D) (apart : res ∉ out.args) :
    StepsOn w llvm (.ioCoerce res out inp) D labels D := by
  intro m m' agree _
  show (execIOCoerce w res out inp m).Related labels _ (emitIOCoerce w res out inp m')
  simp only [execIOCoerce, emitIOCoerce, agree.isnull clean]
  cases null : (m'.mem res).isnull with
  | true => exact related_inputFunction agree clean cleanIn 0 null
  | false =>
    simp only [Bool.false_eq_true, if_false, agree.value clean null]
    obtain ⟨agree1, args⟩ := agree.setFirst out.args
      (d := { value := (m'.mem res).value, isnull := false }) rfl cleanOut
    simp only [functionCallInvoke, args]
    apply related_call agree1.trace
    intro ds _
    apply related_inputFunction (agree1.traced _) clean cleanIn
    exact (congrArg NullableDatum.isnull (mem_setFirst apart m' _)).trans null

/-! ### Row comparisons -/

/-- The comparison is in the result cell of both; the flags need not be the same. -/
def RowAgree (D : Set Cell) (res : Cell) (m m' : Machine) : Prop :=
  Agree (insert res D) m m' ∧ (m.mem res).value = (m'.mem res).value

lemma datumGetInt32_eq_zero (int4 : isInt4 d = true) (notNull : d.isnull = false) :
    datumGetInt32 d.value = 0 ↔ d.value = 0 := by
  simp only [isInt4, notNull, Bool.false_or, beq_iff_eq] at int4
  constructor
  · intro zero
    have low : d.value.setWidth 32 = 0 := BitVec.toInt_inj.mp (by simpa [datumGetInt32] using zero)
    rw [int4, low]
    rfl
  · intro zero
    rw [zero]
    rfl

/-- `EEOP_ROWCOMPARE_STEP`: the emitted code tests all bits, and leaves the flag alone. -/
lemma steps_rowCompareStep (keeps : llvm.Keeps) (clean : ∀ c ∈ f.args, c ∉ D) :
    StepsTo w llvm (.rowCompareStep res f) D [0, 1]
      { next := RowAgree D res
        exit := fun k m m' => (k = 0 ∧ RowAgree D res m m') ∨ (k = 1 ∧ Agree (D \ {res}) m m')
        done := fun _ _ => False } := by
  intro m m' agree typed
  show (execRowCompareStep w res f m).Related [0, 1] _ (emitRowCompareStep w llvm res f m')
  have args := agree.args clean
  have nulls := agree.anyArgNull clean
  simp only [Op.typed, nulls] at typed
  simp only [execRowCompareStep, emitRowCompareStep, emitCheckArgNulls_eq, nulls, buildV1Call_eq m' keeps,
    functionCallInvoke, args]
  cases skipped : f.func.fnStrict && anyArgNull m' f.args with
  | true => exact ⟨_, 1, rfl, rfl, Or.inr ⟨rfl, agree.setNull res⟩⟩
  | false =>
    simp only [Bool.false_eq_true, if_false]
    rw [skipped, Bool.false_or] at typed
    simp only [returns, args] at typed
    apply related_call agree.trace
    intro ds answered
    rw [answered] at typed
    have traced := agree.traced (.function f.func (m'.args f.args))
    cases null : (returned ds).isnull with
    | true =>
      simp only [Bool.true_eq_false, if_true, if_false, setValue_setNull]
      exact ⟨_, 1, rfl, rfl, Or.inr ⟨rfl, traced.set rfl⟩⟩
    | false =>
      simp only [Bool.false_eq_true, if_true, if_false, setValue_setNull, Machine.mem_set_self]
      have zero := datumGetInt32_eq_zero typed null
      have held : RowAgree D res (({ m with trace := m.trace ++ [.function f.func (m'.args f.args)] } : Machine).set res
            { value := (returned ds).value, isnull := false })
          (({ m' with trace := m'.trace ++ [.function f.func (m'.args f.args)] } : Machine).setValue res
            (returned ds).value) :=
        ⟨traced.spoil _ _, by simp⟩
      by_cases equal : (returned ds).value = 0
      · rw [if_neg (by simp [zero.mpr equal]), if_pos equal]
        exact ⟨_, rfl, held⟩
      · rw [if_pos fun is => equal (zero.mp is), if_neg equal]
        exact ⟨_, 0, rfl, rfl, Or.inl ⟨rfl, held⟩⟩

lemma holds_eq (rctype : RowCompareType) (d : Datum) : boolGetDatum (rctype.holds (datumGetInt32 d)) =
      if (match rctype with
        | .lt => (d.setWidth 32).slt 0
        | .le => (d.setWidth 32).sle 0
        | .gt => BitVec.slt 0 (d.setWidth 32)
        | .ge => BitVec.sle 0 (d.setWidth 32)) then 1 else 0 := by
  cases rctype <;> simp [RowCompareType.holds, datumGetInt32, BitVec.slt, BitVec.sle, boolGetDatum]

/-- `EEOP_ROWCOMPARE_FINAL` looks at the value only. -/
lemma related_rowCompareFinal (rctype : RowCompareType) (agree : RowAgree D res m m') :
    (interpStep w (.rowCompareFinal res rctype) m).Related labels (.through (Agree (D \ {res})))
      (emittedStep w llvm (.rowCompareFinal res rctype) m') := by
  refine ⟨_, congrArg Flow.next (setNull_setValue m' res false _), ?_⟩
  have same : NullableDatum.sql
        { value := boolGetDatum (rctype.holds (datumGetInt32 (m.mem res).value)), isnull := false } =
      NullableDatum.sql
        { value := boolGetDatum (rctype.holds (datumGetInt32 (m'.mem res).value)), isnull := false } := by
    rw [agree.2]
  rw [holds_eq rctype (m'.mem res).value] at same
  apply (agree.1.set same).mono
  rintro c ⟨rfl | inside, ne⟩
  · exact absurd rfl ne
  · exact ⟨inside, ne⟩

/-! ### Aggregates -/

lemma steps_aggDeserialize (keeps : llvm.Keeps) (strict : Bool) (clean : ∀ c ∈ f.args, c ∉ D) :
    StepsTo w llvm (.aggDeserialize strict res f) D [0] (.leaving (Agree (D \ {res})) (Agree D)) := by
  intro m m' agree _
  have first : anyArgNull m (f.args.take 1) = anyArgNull m' (f.args.take 1) :=
    agree.anyArgNull fun c member => clean c (List.mem_of_mem_take member)
  simp only [interpStep, emittedStep, emitCheckArgNulls_eq, first, emitFuncExpr_eq keeps]
  split
  · exact ⟨_, 0, rfl, rfl, rfl, agree⟩
  · exact related_funcExpr agree clean fun _ _ => id

/-- A deserialization function that is not strict is called like any other. -/
lemma steps_aggDeserialize_plain (keeps : llvm.Keeps) (clean : ∀ c ∈ f.args, c ∉ D) :
    StepsOn w llvm (.aggDeserialize false res f) D labels (D \ {res}) :=
  fun m m' agree _ => steps_funcExpr keeps clean m m' agree rfl

lemma steps_aggStrictInputCheck {args : List Cell} (clean : ∀ c ∈ args, c ∉ D) :
    StepsOut w llvm (.aggStrictInputCheck args) D := by
  intro m m' agree _
  simp only [interpStep, emittedStep, emitCheckArgNulls_eq, agree.anyArgNull clean]
  split
  · exact ⟨_, 0, rfl, rfl, rfl, agree⟩
  · exact ⟨_, rfl, agree⟩

lemma steps_aggPlainPergroupNullcheck (setoff : Nat) : StepsOut w llvm (.aggPlainPergroupNullcheck setoff) D := by
  intro m m' agree _
  simp only [interpStep, emittedStep, agree.pergroups]
  cases m'.pergroups setoff with
  | none => exact ⟨_, 0, rfl, rfl, rfl, agree⟩
  | some groups => exact ⟨_, rfl, agree⟩

lemma related_aggInitGroup (agree : Agree D m m') (clean : ∀ c ∈ t.args.tail, c ∉ D) :
    (execAggInitGroup w t m).Related labels (.through (Agree D)) (execAggInitGroup w t m') := by
  rcases eq : t.args with _ | ⟨arg0, _ | ⟨arg1, rest⟩⟩ <;> simp only [execAggInitGroup, eq]
  case cons.cons =>
    rw [agree.mem arg1 (clean arg1 (by simp [eq]))]
    apply related_call agree.trace
    exact fun ds _ => ⟨_, rfl, (agree.traced _).setGroup _ _ _⟩
  all_goals rw [agree.trace]; rfl

/-- The transition function is called and its result stored, reparented if need be. -/
lemma related_aggPlainTrans (keeps : llvm.Keeps) (agree : Agree D m m')
    (clean : ∀ c ∈ t.args.tail, c ∉ D) (g : PerGroup) :
    (execAggPlainTrans w t g m).Related labels (.through (Agree D)) (invokeTrans w t g m' fun v_retval m =>
        let m := m.lifetimeEnd llvm t.args
        if t.byVal = false ∧ ¬ g.transValue = v_retval.value then
          m.call w (.aggTransReparent t.transno v_retval.sql
              (NullableDatum.sql { value := g.transValue, isnull := g.transValueIsNull })) fun ds m =>
            .next (m.setGroup t.setoff t.transno
              { g with transValue := (returned ds).value, transValueIsNull := v_retval.isnull })
        else
          .next (m.setGroup t.setoff t.transno
            { g with transValue := v_retval.value, transValueIsNull := v_retval.isnull })) := by
  have kept (m : Machine) : m.lifetimeEnd llvm t.args = m := by simp only [Machine.lifetimeEnd, keeps _ _]
  obtain ⟨agree1, args⟩ := agree.setFirst t.args
    (d := { value := g.transValue, isnull := g.transValueIsNull }) rfl clean
  simp only [execAggPlainTrans, invokeTrans, args, kept]
  apply related_call agree1.trace
  intro ds _
  have traced := agree1.traced (.transition t.func t.transno t.setno
    ((m'.setFirst t.args { value := g.transValue, isnull := g.transValueIsNull }).args t.args))
  by_cases reparent : t.byVal = false ∧ ¬ g.transValue = (returned ds).value
  · have changed : (!t.byVal && (returned ds).value != g.transValue) = true := by
      simp only [reparent.1, Bool.not_false, Bool.true_and, bne_iff_ne]
      exact fun eq => reparent.2 eq.symm
    rw [if_pos changed, if_pos reparent]
    apply related_call traced.trace
    exact fun ds' _ => ⟨_, rfl, (traced.traced _).setGroup _ _ _⟩
  · have same : ¬ (!t.byVal && (returned ds).value != g.transValue) = true := by
      simp only [Bool.and_eq_true, Bool.not_eq_true', bne_iff_ne]
      exact fun both => reparent ⟨both.1, fun eq => both.2 eq.symm⟩
    rw [if_neg same, if_neg reparent]
    exact ⟨_, rfl, traced.setGroup _ _ _⟩

lemma steps_aggPlainTrans (keeps : llvm.Keeps) (kind : TransKind) (clean : ∀ c ∈ t.args.tail, c ∉ D) :
    StepsOn w llvm (.aggPlainTrans kind t) D labels D := by
  intro m m' agree _
  show (execAggTrans w kind t m).Related labels _ (emitAggTrans w llvm kind t m')
  simp only [execAggTrans, emitAggTrans, agree.pergroups]
  cases m'.pergroups t.setoff with
  | none => rw [agree.trace]; rfl
  | some groups =>
    have plain := @related_aggPlainTrans w llvm D labels m m' t keeps agree clean (groups t.transno)
    have stays : Flow.Related labels (.through (Agree D)) (.next m) (.next m' : Flow Machine Raised) :=
      ⟨m', rfl, agree⟩
    cases kind with
    | plain => simpa using plain
    | strict =>
      cases isnull : (groups t.transno).transValueIsNull with
      | true => simpa [isnull] using stays
      | false => simpa [isnull] using plain
    | initStrict =>
      cases missing : (groups t.transno).noTransValue with
      | true => simpa [missing] using related_aggInitGroup agree clean
      | false =>
        cases isnull : (groups t.transno).transValueIsNull with
        | true => simpa [missing, isnull] using stays
        | false => simpa [missing, isnull] using plain

end Steps

end Hex.Compiler
