/-
# Compiler.CorrectFlow — control flow

AND, OR, COALESCE, CASE and row comparisons evaluate their parts into one cell and
jump to the end of a block as soon as the value is known. The lemmas for their loops
say how each ends: by running through, or by leaving the block.
-/
import Hex.Compiler.Correct

namespace Hex.Compiler

open Theory.BlockCode

variable {x : Env → Eval SqlValue}

variable {w : World} {slots : SlotName → Slot} {K : List (Cell × NullableDatum)} {u a : Bool}
  {g g1 g2 : Scope → Cell → Gen 0} {b : Option Bool} {res anynull : Cell} {m : Machine} {s : Scope} {h : Nat}
  {boolop : AndOr} {rest : Scope → Cell → Cell → Gen 1} {env : Env} {x1 x2 : Env → Eval SqlValue} {W : Cell → Prop}

/-! ## Tests of one value -/

/-- A step that changes the value of its argument in place. -/
lemma implements_then {op : Cell → Op}
    {f : SqlValue → Eval SqlValue} (arg : Implements w slots u a g x)
    (step : ∀ res m h, StepYields w (op res) res m h (f (m.mem res).sql m.trace)) :
    Implements w slots u a (fun s res => (g s res).seq (.step (op res))) (fun env => x env >>= f) := by
  intro K s res h env m context older clear relies
  refine Computes.seq (arg context older clear (Gen.relies_seq.mp relies).1) (fun _ => id) fun v m1 frame held => ?_
  subst held
  exact (step res m1 _).mono fun c eq => Or.inl eq

lemma computes_nullTest (isNull : Bool) (res : Cell) (m : Machine) (h : Nat) :
    StepYields w (.nullTest res isNull) res m h
      ((pure (boolSql (some (if isNull then (m.mem res).sql.isNone else (m.mem res).sql.isSome))) : Eval SqlValue)
        m.trace) := by
  refine Computes.last (eval_step_next rfl) rfl (Frame.only m res _) ?_
  rw [Machine.mem_set_self]
  cases null : (m.mem res).isnull <;> simp [NullableDatum.sql, null, boolSql]

lemma computes_booleanTest (booltesttype : BoolTestType) (res : Cell) (m : Machine) (h : Nat) :
    StepYields w (boolTestOpcode booltesttype res) res m h
      ((Eval.truth (m.mem res).sql >>= fun b => pure (boolSql (some (booltesttype.test b)))) m.trace) := by
  refine computes_truth fun b value => ?_
  have ends : ∃ m', interpStep w (boolTestOpcode booltesttype res) m = .next m' ∧ m'.trace = m.trace ∧
      Frame (· = res) m m' ∧ (m'.mem res).sql = boolSql (some (booltesttype.test b)) := by
    cases b with
    | none =>
      have null := NullableDatum.sql_eq_none.mp value
      cases booltesttype <;> simp only [boolTestOpcode, interpStep, execBoolTest, null, if_true] <;>
        exact ⟨_, rfl, rfl, Frame.only m res _, by rw [Machine.mem_set_self]; rfl⟩
    | some b =>
      obtain ⟨null, datum, truth⟩ := datumGetBool_of_boolSql value
      cases booltesttype <;> simp only [boolTestOpcode, interpStep, execBoolTest, null, Bool.false_eq_true, if_false]
      case isTrue | isNotFalse => exact ⟨m, rfl, rfl, Frame.refl m, by cases b <;> exact value⟩
      all_goals refine ⟨_, rfl, rfl, Frame.only m res _, ?_⟩
      case isUnknown | isNotUnknown => rw [Machine.mem_set_self]; rfl
      all_goals
        rw [Machine.mem_setValue_self, truth]
        cases b <;> simp only [NullableDatum.sql, null] <;> rfl
  obtain ⟨m', ran, traced, frame, held⟩ := ends
  exact Computes.last (eval_step_next ran) traced frame held

lemma implements_not (arg : Implements w slots u false g x) : Implements w slots u false
      (fun s res => .palloc 0 fun _ =>
        .block ((Gen.inner (g s res)).seq ((Gen.jump (.boolNotStep res) [0] Gen.first_inside).seq .nop)))
      (fun env => x env >>= fun v => Eval.truth v >>= fun b => pure (boolSql (not3 b))) := by
  intro K s res h env m context older clear relies
  refine LeadsTo.block (Computes.seq (arg context older clear (Gen.relies_seq.mp relies).1) (fun _ => id) ?_)
  refine fun v m1 frame held => computes_truth fun b value => ?_
  subst held
  have ran : interpStep w (.boolNotStep res) m1 =
      .next (m1.setValue res (boolGetDatum (!datumGetBool (m1.mem res).value))) := rfl
  refine Computes.before (eval_jump_next ran) (Frame.setValue (Or.inl rfl) _) (Computes.pure (Or.inl rfl) ?_)
  rw [Machine.mem_setValue_self]
  cases b with
  | none =>
    have null : (m1.mem res).isnull = true := NullableDatum.sql_eq_none.mp value
    exact sql_of_isnull null
  | some b =>
    obtain ⟨null, _, truth⟩ := datumGetBool_of_boolSql value
    simp [NullableDatum.sql, null, truth, boolSql, not3]

/-! ## AND and OR -/

/-- The value of an AND or OR that no argument decided, given whether one was NULL. -/
def AndOr.soFar (boolop : AndOr) (anynull : Bool) : Option Bool :=
  if anynull then none else some (!boolop.dominant)

lemma AndOr.soFar_ne_dominant (boolop : AndOr) (anynull : Bool) : boolop.soFar anynull ≠ some boolop.dominant := by
  cases boolop <;> cases anynull <;> decide

/-- An argument that does not decide adds only whether it is NULL. -/
lemma AndOr.connect_soFar (boolop : AndOr) (anynull : Bool) (open_ : b ≠ some boolop.dominant) :
    boolop.connect (boolop.soFar anynull) b = boolop.soFar (anynull || b.isNone) := by
  cases boolop <;> cases anynull <;> rcases b with _ | _ | _ <;> first | rfl | exact absurd rfl open_

lemma AndOr.connect_dominant (boolop : AndOr) (acc : Option Bool) :
    boolop.connect acc (some boolop.dominant) = some boolop.dominant := by
  cases boolop <;> rcases acc with _ | _ | _ <;> rfl

lemma AndOr.soFar_connect (boolop : AndOr) (b : Option Bool) : boolop.connect (boolop.soFar false) b = b := by
  cases boolop <;> rcases b with _ | _ | _ <;> rfl

lemma AndOr.decides_eq (boolop : AndOr) (b : Bool) : boolop.decides (boolGetDatum b) = (b == boolop.dominant) := by
  cases boolop <;> cases b <;> rfl

/-- A step behind the first argument or a middle one: it ends the evaluation, or it
notes whether the argument is NULL. -/
lemma interpStep_boolStep (boolop : AndOr) {pos : StepPos}
    (notLast : pos ≠ .last) (ne : anynull ≠ res) (value : (m.mem res).sql = boolSql b) :
    ∃ m', m'.trace = m.trace ∧ Frame (· = anynull) m m' ∧ interpStep w (.boolStep boolop pos res anynull) m =
        (if b = some boolop.dominant then .jump 0 m' else .next m') ∧
      (m'.mem anynull).isnull = ((pos != .first && (m.mem anynull).isnull) || b.isNone) := by
  -- `anynull` is cleared behind the first argument only
  obtain ⟨m0, cleared, traced, frame, flag⟩ : ∃ m0, (if pos = .first then m.set anynull { value := 0, isnull := false } else m) = m0 ∧
      m0.trace = m.trace ∧ Frame (· = anynull) m m0 ∧
      (m0.mem anynull).isnull = (pos != .first && (m.mem anynull).isnull) := by
    by_cases first : pos = .first
    · exact ⟨_, if_pos first, rfl, Frame.only m anynull _, by simp [first]⟩
    · exact ⟨_, if_neg first, rfl, Frame.refl m, by simp [first]⟩
  have same : m0.mem res = m.mem res := frame.mem res ne.symm
  have step : interpStep w (.boolStep boolop pos res anynull) m =
      if (m0.mem res).isnull then .next (m0.setNull anynull true)
      else if boolop.decides (m0.mem res).value then .jump 0 m0 else .next m0 := by
    simp only [interpStep, execBoolStep, cleared]
  rw [same] at step
  cases b with
  | none =>
    rw [if_pos (NullableDatum.sql_eq_none.mp value)] at step
    exact ⟨m0.setNull anynull true, traced, frame.trans (Frame.only m0 anynull _), step, by simp⟩
  | some b =>
    obtain ⟨null, datum, _⟩ := datumGetBool_of_boolSql value
    rw [null, datum, boolop.decides_eq] at step
    refine ⟨m0, traced, frame, ?_, by simpa using flag⟩
    simpa using step

/-- The step behind the last argument takes NULLs before it into account. -/
lemma interpStep_boolStep_last (boolop : AndOr) (anynull : Cell) (value : (m.mem res).sql = boolSql b) :
    ∃ m', interpStep w (.boolStep boolop .last res anynull) m = .next m' ∧ m'.trace = m.trace ∧ Frame (· = res) m m' ∧
      (m'.mem res).sql = boolSql (boolop.connect (boolop.soFar (m.mem anynull).isnull) b) := by
  have step : interpStep w (.boolStep boolop .last res anynull) m = if (m.mem res).isnull then .next m
      else if boolop.decides (m.mem res).value then .next m
      else if (m.mem anynull).isnull then .next (m.set res { value := 0, isnull := true })
      else .next m := rfl
  cases b with
  | none =>
    rw [if_pos (NullableDatum.sql_eq_none.mp value)] at step
    refine ⟨m, step, rfl, Frame.refl m, ?_⟩
    rw [value, boolop.connect_soFar _ (by simp)]
    simp [AndOr.soFar]
  | some b =>
    obtain ⟨null, datum, _⟩ := datumGetBool_of_boolSql value
    rw [null, datum, boolop.decides_eq] at step
    by_cases dominant : b = boolop.dominant
    · subst dominant
      rw [boolop.connect_dominant, ← value]
      exact ⟨m, by simpa using step, rfl, Frame.refl m, rfl⟩
    · have open_ : some b ≠ some boolop.dominant := fun eq => dominant (Option.some.inj eq)
      rw [boolop.connect_soFar _ open_]
      cases flag : (m.mem anynull).isnull with
      | true =>
        refine ⟨m.set res { value := 0, isnull := true }, by simpa [dominant, flag] using step, rfl,
          Frame.only m res _, ?_⟩
        rw [Machine.mem_set_self]
        rfl
      | false =>
        refine ⟨m, by simpa [dominant, flag] using step, rfl, Frame.refl m, ?_⟩
        rw [value]
        cases boolop <;> cases b <;> first | rfl | exact absurd rfl dominant

structure Junction (u : Bool) (s : Scope) (h : Nat) (res anynull : Cell) : Prop where
  older : Older h res
  olderAny : Older h anynull
  ne : anynull ≠ res
  clear : Clear u false s res
  clearAny : Clear u false s anynull

lemma Junction.grow {d : Nat} (junction : Junction u s h res anynull)
    (g : Gen d) : Junction u s (g.piece h).heap res anynull :=
  { junction with older := junction.older.grow g, olderAny := junction.olderAny.grow g }

/-- The code of the remaining arguments goes on from what is known so far. -/
def GoesOn (w : World) (slots : SlotName → Slot) (u : Bool) (boolop : AndOr) (g : Scope → Cell → Cell → Gen 1)
    (y : Option Bool → Env → Eval SqlValue) : Prop :=
  ∀ ⦃K : List (Cell × NullableDatum)⦄ ⦃s : Scope⦄ ⦃res anynull : Cell⦄ ⦃h : Nat⦄ ⦃env : Env⦄ ⦃m : Machine⦄,
    Context w slots K u s env h m → Junction u s h res anynull → (g s res anynull).Relies K h →
    Computes (Writes (fun c => c = res ∨ c = anynull) h) m
      (y (boolop.soFar (m.mem anynull).isnull) env m.trace) Closes (fun v m' => (m'.mem res).sql = v)
      (eval (interpStep w) ((g s res anynull).piece h).code m)

def AndOr.further (boolop : AndOr) (x : Env → Eval SqlValue) (y : Option Bool → Env → Eval SqlValue)
    (acc : Option Bool) (env : Env) : Eval SqlValue := do
  let b ← Eval.truth (← x env)
  if boolop.connect acc b = some boolop.dominant then pure (boolSql (boolop.connect acc b))
  else y (boolop.connect acc b) env

lemma computes_junctionArg {y : Option Bool → Env → Eval SqlValue} (pos : StepPos)
    (notLast : pos ≠ .last) (arg : Implements w slots u false g x) (goesOn : GoesOn w slots u boolop rest y)
    (context : Context w slots K u s env h m) (junction : Junction u s h res anynull) {a : Gen 1}
    (code : a = (Gen.inner (g s res)).seq ((Gen.jump (.boolStep boolop pos res anynull) [0] Gen.first_inside).seq
      (rest s res anynull)))
    (relies : a.Relies K h) :
    Computes (Writes (fun c => c = res ∨ c = anynull) h) m
      (boolop.further x y (boolop.soFar (pos != .first && (m.mem anynull).isnull)) env m.trace)
      Closes (fun v m' => (m'.mem res).sql = v) (eval (interpStep w) (a.piece h).code m) := by
  subst code
  simp only [Gen.relies_seq, Gen.relies_inner] at relies
  obtain ⟨reliesArg, reliesStep, reliesRest⟩ := relies
  refine arg.andThen context junction.older junction.clear reliesArg (Nat.le_refl h) (Or.inl (Or.inl rfl)) ?_
  refine fun v m1 frame held context1 => computes_truth fun b value => ?_
  subst held
  have kept : m1.mem anynull = m.mem anynull := frame.kept junction.olderAny junction.ne
  obtain ⟨m2, traced, frame', step, flag⟩ :=
    interpStep_boolStep (w := w) boolop notLast junction.ne value
  rw [kept] at flag
  by_cases dominant : b = some boolop.dominant
  · subst dominant
    rw [if_pos rfl] at step
    rw [boolop.connect_dominant, if_pos rfl]
    refine LeadsTo.leaves (eval_jump_exit step rfl) (Computes.last (Or.inr rfl) traced
      (frame'.mono fun c eq => Or.inl (Or.inr eq)) ?_)
    rw [frame'.mem res junction.ne.symm, value]
  · rw [if_neg dominant] at step
    rw [boolop.connect_soFar _ dominant, if_neg (boolop.soFar_ne_dominant _), ← flag]
    have context2 := context1.ran reliesStep (eval_jump_next step) (frame'.mono fun _ => Or.inl)
      fun _ => junction.clearAny.apart
    have later := goesOn context2 (junction.grow (g s res)) reliesRest
    rw [traced] at later
    exact Computes.before (eval_jump_next step) (frame'.mono fun c eq => Or.inl (Or.inr eq))
      (later.mono fun c writes => writes.sub ((g s res).grows h) fun _ => Or.inl)

lemma goesOn_last (arg : Implements w slots u false g x) : GoesOn w slots u boolop
      (fun s res anynull =>
        (Gen.inner (g s res)).seq ((Gen.jump (.boolStep boolop .last res anynull) [0] Gen.first_inside).seq .nop))
      (boolop.further x fun acc _ => pure (boolSql acc)) := by
  intro K s res anynull h env m context junction relies
  refine arg.andThen context junction.older junction.clear (Gen.relies_seq.mp relies).1 (Nat.le_refl h)
    (Or.inl (Or.inl rfl)) fun v m1 frame held _ => computes_truth fun b value => ?_
  subst held
  have kept : m1.mem anynull = m.mem anynull := frame.kept junction.olderAny junction.ne
  obtain ⟨m2, step, traced, frame', result⟩ :=
    interpStep_boolStep_last (w := w) boolop anynull value
  rw [ite_self]
  rw [kept] at result
  refine Computes.before (eval_jump_next step) (frame'.mono fun c eq => Or.inl (Or.inl eq)) ?_
  rw [← traced]
  exact Computes.pure (Or.inl rfl) result

lemma goesOn_middle
    {y : Option Bool → Env → Eval SqlValue} (arg : Implements w slots u false g x)
    (goesOn : GoesOn w slots u boolop rest y) :
    GoesOn w slots u boolop (fun s res anynull =>
        (Gen.inner (g s res)).seq ((Gen.jump (.boolStep boolop .middle res anynull) [0] Gen.first_inside).seq
          (rest s res anynull)))
      (boolop.further x y) := by
  intro K s res anynull h env m context junction relies
  exact computes_junctionArg .middle (by decide) arg goesOn context junction rfl relies

/-- **AND and OR**, from the code of the first argument and of the rest. -/
theorem implements_junction
    {y : Option Bool → Env → Eval SqlValue} (arg : Implements w slots u false g x)
    (goesOn : GoesOn w slots u boolop rest y) :
    Implements w slots u false (fun s res => .palloc 1 fun h =>
        .block ((Gen.inner (g s res)).seq ((Gen.jump (.boolStep boolop .first res (.work h)) [0] Gen.first_inside).seq
          (rest s res (.work h)))))
      (fun env => x env >>= fun v => Eval.truth v >>= fun a =>
        if a = some boolop.dominant then pure (boolSql a) else y a env) := by
  intro K s res h env m context older clear relies
  have junction : Junction u s (h + 1) res (.work h) :=
    { older := older.mono (Nat.le_succ h)
      olderAny := older_work (Nat.lt_succ_self h)
      ne := (older h (Nat.le_refl h)).symm
      clear := clear
      clearAny := context.clear_work (Nat.le_refl h) }
  have inside := computes_junctionArg .first (by decide) arg goesOn (context.grow (Nat.le_succ h)) junction rfl relies
  simp only [AndOr.further, bne_self_eq_false, Bool.false_and, boolop.soFar_connect] at inside
  refine LeadsTo.block (inside.mono fun c writes => writes.sub (Nat.le_succ h) ?_)
  rintro r (rfl | rfl)
  · exact Or.inl rfl
  · exact writes_work (Nat.le_refl h)

/-! ## COALESCE -/

/-- The code of the remaining arguments, when the result cell is NULL. -/
def Coalesces (w : World) (slots : SlotName → Slot) (u : Bool) (g : Scope → Cell → Gen 1)
    (y : Env → Eval SqlValue) : Prop :=
  ∀ ⦃K : List (Cell × NullableDatum)⦄ ⦃s : Scope⦄ ⦃res : Cell⦄ ⦃h : Nat⦄ ⦃env : Env⦄ ⦃m : Machine⦄,
    Context w slots K u s env h m → Older h res → Clear u false s res → (g s res).Relies K h →
    (m.mem res).sql = none →
    Computes (Writes (· = res) h) m (y env m.trace) Closes
      (fun v m' => (m'.mem res).sql = v) (eval (interpStep w) ((g s res).piece h).code m)

lemma coalesces_nil : Coalesces w slots u (fun _ _ => .nop) (fun _ => pure none) :=
  fun _ _ _ _ _ _ _ _ _ _ null => Computes.pure (Or.inl rfl) null

lemma computes_coalesceArg {rest : Scope → Cell → Gen 1}
    {y : Env → Eval SqlValue} (arg : Implements w slots u false g x) (coalesces : Coalesces w slots u rest y)
    (context : Context w slots K u s env h m) (older : Older h res)
    (clear : Clear u false s res) {a : Gen 1}
    (code : a = (Gen.inner (g s res)).seq ((Gen.jump (.jumpIfNotNull res) [0] Gen.first_inside).seq (rest s res)))
    (relies : a.Relies K h) :
    Computes (Writes (· = res) h) m ((x env >>= fun v => match v with
        | some d => pure (some d)
        | none => y env) m.trace) Closes
      (fun v m' => (m'.mem res).sql = v) (eval (interpStep w) (a.piece h).code m) := by
  subst code
  simp only [Gen.relies_seq, Gen.relies_inner] at relies
  refine arg.andThen context older clear relies.1 (Nat.le_refl h) (Or.inl rfl) fun v m1 frame held context1 => ?_
  have step : interpStep w (.jumpIfNotNull res) m1 = if !(m1.mem res).isnull then .jump 0 m1 else .next m1 := rfl
  cases v with
  | some d =>
    obtain ⟨null, _⟩ := NullableDatum.sql_eq_some.mp held
    rw [null] at step
    exact LeadsTo.leaves (eval_jump_exit step rfl) (Computes.pure (Or.inr rfl) held)
  | none =>
    rw [NullableDatum.sql_eq_none.mp held] at step
    have later := coalesces context1 (older.grow _) clear relies.2.2 held
    exact Computes.before (eval_jump_next step) (Frame.refl m1)
      (later.mono fun c writes => writes.sub ((g s res).grows h) fun _ => Or.inl)

/-! ## CASE -/

def ArmEnds (result : Option SqlValue) (m' : Machine) (r : Result Machine Raised) : Prop :=
  r = if result.isSome then .exit 0 m' else .next m'

def ArmResult (res : Cell) (result : Option SqlValue) (m' : Machine) : Prop :=
  ∀ v, result = some v → (m'.mem res).sql = v

/-- The code of arms, whose conditions see the tested value in `test`. -/
def Selects (w : World) (slots : SlotName → Slot) (u : Bool) (g : Scope → Option Cell → Cell → Gen 1)
    (y : SqlValue → Env → Eval (Option SqlValue)) : Prop :=
  ∀ ⦃K : List (Cell × NullableDatum)⦄ ⦃s : Scope⦄ ⦃test : Option Cell⦄ ⦃res : Cell⦄ ⦃h : Nat⦄ ⦃tested : SqlValue⦄
    ⦃env : Env⦄ ⦃m : Machine⦄,
    Context w slots K u s env h m →
    Context w slots K true { s with caseval := test } { env with caseval := tested } h m → Older h res →
    Clear u false s res → Clear true false { s with caseval := test } res → (g s test res).Relies K h →
    Computes (Writes (· = res) h) m (y tested env m.trace) ArmEnds (ArmResult res)
      (eval (interpStep w) ((g s test res).piece h).code m)

lemma selects_nil : Selects w slots u (fun _ _ _ => .nop) (fun _ _ => pure none) :=
  fun _ _ _ _ _ _ _ _ _ _ _ _ _ _ => Computes.pure rfl fun _ eq => nomatch eq

lemma interpStep_jumpIfNotTrue (value : (m.mem res).sql = boolSql b) :
    interpStep w (.jumpIfNotTrue res) m = if b = some true then .next m else .jump 0 m := by
  have step : interpStep w (.jumpIfNotTrue res) m =
      if (m.mem res).isnull || !datumGetBool (m.mem res).value then .jump 0 m else .next m := rfl
  cases b with
  | none =>
    rw [NullableDatum.sql_eq_none.mp value] at step
    exact step
  | some b =>
    obtain ⟨null, _, truth⟩ := datumGetBool_of_boolSql value
    rw [null, truth] at step
    cases b <;> exact step

lemma selects_cons {rest : Scope → Option Cell → Cell → Gen 1} {y : SqlValue → Env → Eval (Option SqlValue)}
    (condition : Implements w slots true false g1 x1) (result : Implements w slots u false g2 x2)
    (selects : Selects w slots u rest y) :
    Selects w slots u (fun s test res =>
        (Gen.block <|
          (Gen.inner (g1 { s with caseval := test } res)).seq <|
          (Gen.jump (.jumpIfNotTrue res) [0] Gen.first_inside).seq <|
          (Gen.inner (g2 s res)).seq <|
          .jump .jump [1] Gen.second_inside).seq <|
        rest s test res)
      (fun tested env => x1 { env with caseval := tested } >>= fun v => Eval.truth v >>= fun b =>
        if b = some true then x2 env >>= fun v => pure (some v) else y tested env) := by
  intro K s test res h tested env m context contextTest older clear clearTest relies
  simp only [Gen.relies_seq, Gen.relies_block, Gen.relies_inner] at relies
  obtain ⟨⟨reliesTest, _, reliesResult, _⟩, reliesRest⟩ := relies
  have le := (g1 { s with caseval := test } res).grows h
  have le2 := (g2 s res).grows ((g1 { s with caseval := test } res).piece h).heap
  refine Computes.bind (condition contextTest older clearTest reliesTest) (fun _ => id) ?_ ?_
  · intro e failed
    change eval (interpStep w) _ m = _ at failed
    simp only [Gen.seq, Gen.block, Gen.inner, eval, failed]
  intro v m1 (ran : eval (interpStep w) _ m = .next m1) frame held
  refine computes_truth fun b value => ?_
  subst held
  have context1 := context.ran reliesTest ran frame fun _ => clear.apart
  have step := interpStep_jumpIfNotTrue (w := w) value
  by_cases isTrue : b = some true
  · rw [if_pos isTrue] at step ⊢
    refine Computes.bind (result context1 (older.mono le) clear reliesResult)
      (fun c writes => writes.sub le fun _ => Or.inl) ?_ ?_
    · intro e failed
      simp only [Gen.seq, Gen.block, Gen.inner, Gen.jump, eval, ran, step, failed]
    · intro x m2 (ran' : eval (interpStep w) _ m1 = .next m2) frame' held'
      refine Computes.last ?_ rfl (Frame.refl m2) fun y eq => Option.some.inj eq ▸ held'
      simp only [Gen.seq, Gen.block, Gen.inner, Gen.jump, eval, ran, step, ran']
      rfl
  · rw [if_neg isTrue] at step ⊢
    have contextTest1 := contextTest.ran reliesTest ran frame fun _ => clearTest.apart
    have later := selects (context1.grow le2) (contextTest1.grow le2) (older.mono (Nat.le_trans le le2)) clear clearTest
      reliesRest
    have skipped : eval (interpStep w) (((Gen.block <|
          (Gen.inner (g1 { s with caseval := test } res)).seq <|
          (Gen.jump (.jumpIfNotTrue res) [0] Gen.first_inside).seq <|
          (Gen.inner (g2 s res)).seq <|
          Gen.jump .jump [1] Gen.second_inside).seq (rest s test res)).piece h).code m =
        eval (interpStep w) ((rest s test res).piece
          ((g2 s res).piece ((g1 { s with caseval := test } res).piece h).heap).heap).code m1 := by
      simp only [Gen.seq, Gen.block, Gen.inner, Gen.jump, eval, ran, step]
      rfl
    rw [skipped]
    exact later.mono fun c writes => writes.sub (Nat.le_trans le le2) fun _ => Or.inl

lemma computes_makeReadonly (res src : Cell) (m : Machine) (h : Nat) :
    StepYields w (.makeReadonly res src) res m h (readOnly w (m.mem src).sql m.trace) := by
  have step : interpStep w (.makeReadonly res src) m = if (m.mem src).isnull then .next (m.setNull res true)
      else makeReadOnly w (m.mem src).value m fun d m => .next (m.set res { value := d, isnull := false }) := rfl
  cases null : (m.mem src).isnull with
  | true =>
    rw [null] at step
    rw [sql_of_isnull null]
    exact Computes.last (eval_step_next step) rfl (Frame.only m res _) (sql_of_isnull (by simp))
  | false =>
    rw [null] at step
    rw [sql_of_not_isnull null]
    refine computes_call step fun ds called => ?_
    refine Computes.last (eval_jump_next called) rfl (Frame.only _ res _) ?_
    rw [Machine.mem_set_self]
    rfl

def caseBody (arms : Scope → Option Cell → Cell → Gen 1) (default : Scope → Cell → Gen 0) (s : Scope)
    (test : Option Cell) (res : Cell) : Gen 0 :=
  .block ((arms s test res).seq (.inner (default s res)))

def caseValue (y : SqlValue → Env → Eval (Option SqlValue)) (x : Env → Eval SqlValue)
    (tested : SqlValue) (env : Env) : Eval SqlValue :=
  y tested env >>= fun result => match result with
    | some v => pure v
    | none => x env

section Case

variable {arms : Scope → Option Cell → Cell → Gen 1} {default : Scope → Cell → Gen 0}
  {y : SqlValue → Env → Eval (Option SqlValue)} {x : Env → Eval SqlValue}

lemma computes_caseBody (selects : Selects w slots u arms y) (otherwise : Implements w slots u false default x)
    {s : Scope} {test : Option Cell} {res : Cell} {h : Nat}
    {tested : SqlValue} {env : Env} {m : Machine} (context : Context w slots K u s env h m)
    (contextTest : Context w slots K true { s with caseval := test } { env with caseval := tested } h m)
    (older : Older h res) (clear : Clear u false s res) (clearTest : Clear true false { s with caseval := test } res)
    (relies : (caseBody arms default s test res).Relies K h) :
    Computes (Writes (· = res) h) m (caseValue y x tested env m.trace) Through (fun v m' => (m'.mem res).sql = v)
      (eval (interpStep w) ((caseBody arms default s test res).piece h).code m) := by
  simp only [caseBody, Gen.relies_block, Gen.relies_seq, Gen.relies_inner] at relies
  have selected := selects context contextTest older clear clearTest relies.1
  refine LeadsTo.block (Computes.bind selected (fun _ => id) ?_ ?_)
  · intro e failed
    simp only [Gen.seq, eval, failed]
  · intro result m1 ends frame held
    cases result with
    | some v =>
      have left : eval (interpStep w) ((arms s test res).piece h).code m = .exit 0 m1 := ends
      simp only [Gen.seq, eval, left]
      exact Computes.pure (Or.inr rfl) (held v rfl)
    | none =>
      have through : eval (interpStep w) ((arms s test res).piece h).code m = .next m1 := ends
      have later := otherwise (context.ran relies.1 through frame fun _ => clear.apart) (older.grow _) clear relies.2
      simp only [Gen.seq, Gen.inner, eval, through]
      exact (later.imp (fun _ _ => Or.inl) fun _ _ => id).mono fun c writes =>
        writes.sub ((arms s test res).grows h) fun _ => Or.inl

lemma implements_case_none (selects : Selects w slots u arms y) (otherwise : Implements w slots u false default x) :
    Implements w slots u false (fun s res => .palloc 0 fun _ => Gen.nop.seq (caseBody arms default s none res))
      (fun env => (pure w.caseValue.sql : Eval SqlValue) >>= fun tested => caseValue y x tested env) := by
  intro K s res h env m context older clear relies
  have contextTest : Context w slots K true { s with caseval := none } { env with caseval := w.caseValue.sql } h m :=
    ⟨fun c holds => context.older c (Or.inr (holds.resolve_left fun read => nomatch read.2)), fun _ => rfl,
      context.domainval, context.slots, context.loaded⟩
  exact computes_caseBody selects otherwise context contextTest older clear ⟨fun _ _ => nofun, clear.domainval⟩
    (Gen.relies_seq.mp relies).2

/-- **CASE** with a test expression. -/
theorem implements_case_some {test : Scope → Cell → Gen 0} {t : Env → Eval SqlValue}
    (tests : Implements w slots u false test t) (selects : Selects w slots u arms y)
    (otherwise : Implements w slots u false default x) :
    Implements w slots u false
      (fun s res => .palloc 1 fun h => (test s (.work h)).seq (caseBody arms default s (some (.work h)) res))
      (fun env => t env >>= fun tested => caseValue y x tested env) := by
  intro K s res h env m context older clear relies
  simp only [Gen.relies_palloc, Gen.relies_seq] at relies
  have olderTest : Older (h + 1) (.work h) := older_work (Nat.lt_succ_self h)
  refine tests.andThen (context.grow (Nat.le_succ h)) olderTest (context.clear_work (Nat.le_refl h)) relies.1
    (Nat.le_succ h) (writes_work (Nat.le_refl h)) fun tested m1 frame held context1 => ?_
  have clearBody : Clear true false { s with caseval := some (.work h) } res :=
    ⟨fun _ _ eq => older h (Nat.le_refl h) (Option.some.inj eq).symm, clear.domainval⟩
  have le := Nat.le_trans (Nat.le_succ h) ((test s (.work h)).grows (h + 1))
  have body := computes_caseBody selects otherwise context1 (context1.withCaseval (olderTest.grow _) fun _ => held)
    (older.mono le) clear clearBody relies.2
  exact body.mono fun c writes => writes.sub le fun _ => Or.inl

end Case

/-! ## Row comparisons -/

/-- Where the comparison of columns ends: behind the final step if one is NULL, before it
if one decides, otherwise at the next column. -/
def RowEnds (compared : Option Int) (m' : Machine) (r : Result Machine Raised) : Prop :=
  r = match compared with
    | none => .exit 1 m'
    | some i => if i = 0 then .next m' else .exit 0 m'

/-- The comparison is in the result cell; only its value counts until the final step. -/
def RowResult (res : Cell) (compared : Option Int) (m' : Machine) : Prop :=
  match compared with
  | none => (m'.mem res).sql = none
  | some i => datumGetInt32 (m'.mem res).value = i

/-- The code of the remaining columns, when the columns before are equal. -/
def Compares (w : World) (slots : SlotName → Slot) (u : Bool) (g : Scope → Cell → Gen 2)
    (y : Env → Eval (Option Int)) : Prop :=
  ∀ ⦃K : List (Cell × NullableDatum)⦄ ⦃s : Scope⦄ ⦃res : Cell⦄ ⦃h : Nat⦄ ⦃env : Env⦄ ⦃m : Machine⦄,
    Context w slots K u s env h m → Older h res → Clear u false s res → (g s res).Relies K h →
    datumGetInt32 (m.mem res).value = 0 →
    Computes (Writes (· = res) h) m (y env m.trace) RowEnds (RowResult res)
      (eval (interpStep w) ((g s res).piece h).code m)

lemma compares_nil : Compares w slots u (fun _ _ => .nop) (fun _ => pure (some 0)) :=
  fun _ _ _ _ _ _ _ _ _ _ equal => Computes.pure rfl equal

lemma computes_rowCompareStep (res : Cell) (f : Func) (c0 c1 : Cell) (m : Machine) (h : Nat) :
    Computes (· = res) m (compareColumn w f (m.mem c0).sql (m.mem c1).sql m.trace) RowEnds (RowResult res)
      (eval (interpStep w) ((Gen.jump (.rowCompareStep res { func := f, args := [c0, c1] }) [0, 1] Gen.both_inside :
        Gen 2).piece h).code m) := by
  have step : interpStep w (.rowCompareStep res { func := f, args := [c0, c1] }) m =
      execRowCompareStep w res { func := f, args := [c0, c1] } m := rfl
  have args : m.args [c0, c1] = [(m.mem c0).sql, (m.mem c1).sql] := rfl
  have nulls := anyArgNull_eq m [c0, c1]
  simp only [execRowCompareStep, nulls, args, functionCallInvoke] at step
  simp only [compareColumn, Func.apply]
  cases null : f.fnStrict && [(m.mem c0).sql, (m.mem c1).sql].any Option.isNone with
  | true =>
    rw [null] at step
    refine Computes.last (eval_jump_exit step rfl) rfl (Frame.only m res _) ?_
    exact sql_of_isnull (by simp)
  | false =>
    rw [null] at step
    simp only [Bool.false_eq_true, if_false] at step ⊢
    rw [Eval.function_bind]
    refine computes_call step fun ds called => ?_
    cases isnull : (returned ds).isnull with
    | true =>
      rw [isnull] at called
      rw [sql_of_isnull isnull]
      refine Computes.last (eval_jump_exit called rfl) rfl ((Frame.only _ res _).trans (Frame.only _ res _)) ?_
      exact sql_of_isnull (by simp)
    | false =>
      rw [isnull] at called
      rw [sql_of_not_isnull isnull]
      simp only [Bool.false_eq_true, if_false, Machine.mem_setNull_self, Machine.mem_setValue_self] at called
      by_cases equal : datumGetInt32 (returned ds).value = 0
      · rw [if_neg (by simp [equal])] at called
        rw [eval_jump_next called]
        refine Computes.last (if_pos equal).symm rfl ((Frame.only _ res _).trans (Frame.only _ res _)) ?_
        simp [RowResult]
      · rw [if_pos equal] at called
        rw [eval_jump_exit called rfl]
        refine Computes.last (if_neg equal).symm rfl ((Frame.only _ res _).trans (Frame.only _ res _)) ?_
        simp [RowResult]

/-- The comparison of columns from the first one on that decides. -/
def compareFrom (w : World) (f : Func) (x1 x2 : Env → Eval SqlValue) (y : Env → Eval (Option Int))
    (env : Env) : Eval (Option Int) := do
  let left ← x1 env
  let right ← x2 env
  match ← compareColumn w f left right with
  | some 0 => y env
  | decided => pure decided

lemma computes_column {f : Func} {rest : Scope → Cell → Gen 2} {y : Env → Eval (Option Int)} (left : Implements w slots u false g1 x1)
    (right : Implements w slots u false g2 x2) (compares : Compares w slots u rest y)
    (context : Context w slots K u s env h m) (older : Older h res) (clear : Clear u false s res) {a : Gen 2}
    (code : a = .palloc 2 fun h =>
      (Gen.inner (g1 s (.work h))).seq <|
      (Gen.inner (g2 s (.work (h + 1)))).seq <|
      (Gen.jump (.rowCompareStep res { func := f, args := [.work h, .work (h + 1)] }) [0, 1] Gen.both_inside).seq <|
      rest s res)
    (relies : a.Relies K h) :
    Computes (Writes (· = res) h) m (compareFrom w f x1 x2 y env m.trace) RowEnds (RowResult res)
      (eval (interpStep w) (a.piece h).code m) := by
  subst code
  simp only [Gen.relies_palloc, Gen.relies_seq, Gen.relies_inner] at relies
  obtain ⟨reliesLeft, reliesRight, reliesStep, reliesRest⟩ := relies
  have olderLeft : Older (h + 2) (.work h) := older_work (by omega)
  have olderRight : Older (h + 2) (.work (h + 1)) := older_work (by omega)
  refine left.andThen (context.grow (by omega)) olderLeft (context.clear_work (Nat.le_refl h)) reliesLeft (by omega)
    (writes_work (Nat.le_refl h)) fun v1 m1 frame1 held1 context1 => ?_
  have le := Nat.le_trans (by omega : h ≤ h + 2) ((g1 s (.work h)).grows (h + 2))
  refine right.andThen context1 (olderRight.grow _) (context.clear_work (Nat.le_succ h)) reliesRight le
    (writes_work (Nat.le_succ h)) fun v2 m2 frame2 held2 context2 => ?_
  have le2 := Nat.le_trans le ((g2 s (.work (h + 1))).grows ((g1 s (.work h)).piece (h + 2)).heap)
  have kept : m2.mem (.work h) = m1.mem (.work h) := frame2.kept (olderLeft.grow _) (by simp)
  have step := computes_rowCompareStep (w := w) res f (.work h) (.work (h + 1)) m2
    ((g2 s (.work (h + 1))).piece ((g1 s (.work h)).piece (h + 2)).heap).heap
  rw [kept, held1, held2] at step
  refine Computes.bind step (fun c eq => Or.inl eq) ?_ ?_
  · intro e failed
    simp only [Gen.seq, Gen.inner, eval, failed]
  · intro compared m3 ends frame3 held3
    cases compared with
    | none =>
      have left : eval (interpStep w) _ m2 = .exit 1 m3 := ends
      simp only [Gen.seq, Gen.inner, eval, left]
      exact Computes.pure rfl held3
    | some i =>
      by_cases equal : i = 0
      · subst equal
        have through : eval (interpStep w) _ m2 = .next m3 := ends
        simp only [Gen.seq, Gen.inner, eval, through]
        have context3 := context2.ran reliesStep through (frame3.mono fun _ => Or.inl) fun _ => clear.apart
        have later := compares context3 (older.mono le2) clear reliesRest held3
        exact later.mono fun c writes => writes.sub le2 fun _ => Or.inl
      · have left : eval (interpStep w) _ m2 = .exit 0 m3 := Eq.trans ends (if_neg equal)
        simp only [Gen.seq, Gen.inner, eval, left]
        have decided : (match some i with
            | some 0 => y env
            | decided => pure decided : Eval (Option Int)) = pure (some i) := by
          split
          · rename_i eq
            exact absurd (Option.some.inj eq) equal
          · rfl
        rw [decided]
        exact Computes.pure (if_neg equal).symm held3

/-- Where the inner block ends: at the final step, or behind it if a comparison was NULL. -/
def FinalEnds (compared : Option Int) (m' : Machine) (r : Result Machine Raised) : Prop :=
  r = if compared.isSome then .next m' else .exit 0 m'

lemma computes_rowBlock {answer : Answer (Option Int)}
    {body : Code Op} (columns : Computes W m answer RowEnds (RowResult res) (eval (interpStep w) body m)) :
    Computes W m answer FinalEnds (RowResult res) (eval (interpStep w) (.block (.seq body .skip)) m) := by
  cases answer with
  | notBoolean => trivial
  | raised e =>
    change eval (interpStep w) body m = .fail e at columns
    change eval (interpStep w) _ m = .fail e
    simp only [eval, columns]
  | value compared trace =>
    obtain ⟨m', ends, traced, frame, held⟩ := columns
    refine ⟨m', ?_, traced, frame, held⟩
    cases compared with
    | none =>
      have left : eval (interpStep w) body m = .exit 1 m' := ends
      simp only [eval, left]
      rfl
    | some i =>
      have ran : eval (interpStep w) body m = if i = 0 then .next m' else .exit 0 m' := ends
      simp only [eval, ran]
      by_cases equal : i = 0 <;> simp only [equal, if_true, if_false] <;> rfl

/-- `EEOP_ROWCOMPARE_FINAL` and the outer block around it. -/
lemma computes_rowFinal {x : Eval (Option Int)} {body : Code Op} (rctype : RowCompareType) (inside : W res)
    (columns : Computes W m (x m.trace) FinalEnds (RowResult res) (eval (interpStep w) body m)) :
    Computes W m ((x >>= fun compared => pure (boolSql (compared.map rctype.holds))) m.trace) Through
      (fun v m' => (m'.mem res).sql = v)
      (eval (interpStep w) (.block (.seq body (.op (.rowCompareFinal res rctype)))) m) := by
  refine LeadsTo.block (Computes.bind columns (fun _ => id) ?_ ?_)
  · intro e failed
    simp only [eval, failed]
  · intro compared m1 ends frame held
    cases compared with
    | none =>
      have left : eval (interpStep w) body m = .exit 0 m1 := ends
      simp only [eval, left]
      exact Computes.pure (Or.inr rfl) held
    | some i =>
      have through : eval (interpStep w) body m = .next m1 := ends
      have final : eval (interpStep w) (.op (.rowCompareFinal res rctype)) m1 = .next (m1.set res
          { value := boolGetDatum (rctype.holds (datumGetInt32 (m1.mem res).value)), isnull := false }) := rfl
      simp only [eval, through]
      refine Computes.last (Or.inl final) rfl (Frame.set inside _) ?_
      have equal : datumGetInt32 (m1.mem res).value = i := held
      rw [Machine.mem_set_self, equal]
      rfl

end Hex.Compiler
