/-
# Compiler.MinMax — GREATEST and LEAST

`EEOP_MINMAX` finds the values of its arguments in its workspace. `execEvalMinMax` is the loop of
`ExecEvalMinMax` over them: NULLs are skipped, the first value is adopted, and another one takes
its place only if the comparison function says that it is smaller or larger.

**`execEvalMinMax_firstExtreme`**: for a total preorder that is the first argument that no other
one beats, and so is the value of the program that is compiled for the expression.
-/
import Mathlib.Data.List.ReduceOption
import Hex.Theory.RunningMin
import Hex.Compiler.ProgramRun

namespace Hex.Compiler

open Theory.RunningMin

section Loop

variable (greatest : Bool) (cmp : Datum → Datum → NullableDatum)

/-- The loop over the arguments, with `resvalue` and `resnull`. -/
def minMaxLoop : List SqlValue → NullableDatum → NullableDatum
  | [], res => res
  | none :: rest, res => minMaxLoop rest res
  | some d :: rest, res =>
    if res.isnull then minMaxLoop rest { value := d, isnull := false }
    else
      let cmpresult := cmp res.value d
      if cmpresult.isnull then minMaxLoop rest res
      else if 0 < datumGetInt32 cmpresult.value ∧ greatest = false then minMaxLoop rest { res with value := d }
      else if datumGetInt32 cmpresult.value < 0 ∧ greatest = true then minMaxLoop rest { res with value := d }
      else minMaxLoop rest res

/-- `ExecEvalMinMax`; `res` is what the result was before. -/
def execEvalMinMax (args : List SqlValue) (res : NullableDatum) : NullableDatum :=
  minMaxLoop greatest cmp args { res with isnull := true }

/-- `a` is less than or equal to `b`, or greater than or equal to it. -/
def Precedes (a b : Datum) : Prop :=
  if greatest then 0 ≤ datumGetInt32 (cmp a b).value else datumGetInt32 (cmp a b).value ≤ 0

instance : DecidableRel (Precedes greatest cmp) := fun a b => by
  unfold Precedes
  infer_instance

/-- The first argument that is not NULL and less (greater) than or equal to all others that are not. -/
def firstExtreme (args : List SqlValue) : SqlValue :=
  args.reduceOption.find? fun d => args.reduceOption.all fun e => Precedes greatest cmp d e

end Loop

/-- The comparison function never returns NULL, and its sign is a total preorder on the values. -/
structure ComparesTotally (cmp : Datum → Datum → NullableDatum) (isValue : Datum → Prop) : Prop where
  notNull : ∀ a b, isValue a → isValue b → (cmp a b).isnull = false
  swap : ∀ a b, isValue a → isValue b → (0 < datumGetInt32 (cmp a b).value ↔ datumGetInt32 (cmp b a).value < 0)
  trans : ∀ a b c, isValue a → isValue b → isValue c → datumGetInt32 (cmp a b).value ≤ 0 →
    datumGetInt32 (cmp b c).value ≤ 0 → datumGetInt32 (cmp a c).value ≤ 0

section Preorder

variable {greatest : Bool} {cmp : Datum → Datum → NullableDatum} {isValue : Datum → Prop} {a b c : Datum}

lemma ComparesTotally.refl (totally : ComparesTotally cmp isValue) (value : isValue a) : Precedes greatest cmp a a := by
  have swap := totally.swap a a value value
  unfold Precedes
  split <;> omega

lemma ComparesTotally.total (totally : ComparesTotally cmp isValue) (first : isValue a) (second : isValue b)
    (not : ¬ Precedes greatest cmp a b) : Precedes greatest cmp b a := by
  have swap := totally.swap a b first second
  have swap' := totally.swap b a second first
  unfold Precedes at not ⊢
  split at not <;> simp_all <;> omega

lemma ComparesTotally.ranks_trans (totally : ComparesTotally cmp isValue) (first : isValue a) (second : isValue b)
    (third : isValue c) (less : Precedes greatest cmp a b) (less' : Precedes greatest cmp b c) : Precedes greatest cmp a c := by
  unfold Precedes at less less' ⊢
  cases greatest with
  | false => exact totally.trans a b c first second third less less'
  | true =>
    rw [if_pos rfl] at less less' ⊢
    -- from `c` to `a`, by way of `b`
    have back := totally.trans c b a third second first
    have swap := totally.swap b a second first
    have swap' := totally.swap c b third second
    have swap'' := totally.swap c a third first
    omega

/-- An argument takes the place of the result exactly if the result does not rank before it. -/
lemma minMaxLoop_some (totally : ComparesTotally cmp isValue) {r d : Datum} (old : isValue r) (new : isValue d)
    (rest : List SqlValue) :
    minMaxLoop greatest cmp (some d :: rest) { value := r, isnull := false } =
      minMaxLoop greatest cmp rest { value := if Precedes greatest cmp r d then r else d, isnull := false } := by
  rw [minMaxLoop, if_neg Bool.false_ne_true]
  dsimp only
  rw [if_neg (by rw [totally.notNull r d old new]; decide)]
  unfold Precedes
  cases greatest <;> simp only [Bool.false_eq_true, Bool.true_eq_false, and_true, and_false, if_true, if_false]
  · by_cases more : 0 < datumGetInt32 (cmp r d).value
    · rw [if_pos more, if_neg (by omega)]
    · rw [if_neg more, if_pos (by omega)]
  · by_cases less : datumGetInt32 (cmp r d).value < 0
    · rw [if_pos less, if_neg (by omega)]
    · rw [if_neg less, if_pos (by omega)]

lemma minMaxLoop_firstLeast (totally : ComparesTotally cmp isValue) (args : List SqlValue) :
    ∀ (before behind : List Datum) (r : Datum), FirstLeast (Precedes greatest cmp) before r behind →
      (∀ d ∈ before ++ r :: behind ++ args.reduceOption, isValue d) →
      ∃ before' behind' r', FirstLeast (Precedes greatest cmp) before' r' behind' ∧
        before' ++ r' :: behind' = before ++ r :: behind ++ args.reduceOption ∧
        minMaxLoop greatest cmp args { value := r, isnull := false } = { value := r', isnull := false } := by
  induction args with
  | nil => exact fun before behind r first _ => ⟨before, behind, r, first, (List.append_nil _).symm, rfl⟩
  | cons arg rest ih =>
    intro before behind r first values
    cases arg with
    | none => exact ih before behind r first values
    | some d =>
      rw [List.reduceOption_cons_of_some, List.append_cons] at values ⊢
      have known (e : Datum) (member : e ∈ before ++ r :: behind ++ [d]) : isValue e :=
        values e (List.mem_append_left _ member)
      have old (e : Datum) (member : e ∈ before ++ r :: behind) : isValue e := known e (List.mem_append_left _ member)
      have isOld : isValue r := old r (List.mem_append_right _ List.mem_cons_self)
      have isNew : isValue d := known d (List.mem_append_right _ (List.mem_singleton.mpr rfl))
      rw [minMaxLoop_some totally isOld isNew]
      by_cases ranks : Precedes greatest cmp r d
      · have moved : before ++ r :: behind ++ [d] = before ++ r :: (behind ++ [d]) := List.append_assoc _ _ _
        rw [if_pos ranks]
        rw [moved] at values ⊢
        exact ih before (behind ++ [d]) r (first.keep ranks) values
      · rw [if_neg ranks]
        refine ih (before ++ r :: behind) [] d (first.replace ?_ ?_ (totally.refl isNew) ranks) values
        · exact fun b member => totally.total (old b member) isNew
        · exact fun b member => totally.ranks_trans isOld (old b member) isNew

lemma execEvalMinMax_cases (totally : ComparesTotally cmp isValue) (args : List SqlValue) (res : NullableDatum)
    (values : ∀ d, some d ∈ args → isValue d) :
    args.reduceOption = [] ∧ (execEvalMinMax greatest cmp args res).sql = none ∨
      ∃ before r behind, FirstLeast (Precedes greatest cmp) before r behind ∧ args.reduceOption = before ++ r :: behind ∧
        (execEvalMinMax greatest cmp args res).sql = some r := by
  unfold execEvalMinMax
  induction args with
  | nil => exact Or.inl ⟨rfl, rfl⟩
  | cons arg rest ih =>
    cases arg with
    | none => exact ih fun d member => values d (List.mem_cons_of_mem none member)
    | some d =>
      have one : FirstLeast (Precedes greatest cmp) [] d [] := firstLeast_one (totally.refl (values d List.mem_cons_self))
      obtain ⟨before, behind, r, first, same, ends⟩ := minMaxLoop_firstLeast totally rest [] [] d one
        fun e member => values e (List.reduceOption_mem_iff.mp member)
      refine Or.inr ⟨before, r, behind, first, same.symm, ?_⟩
      rw [minMaxLoop, if_pos rfl, ends]
      rfl

lemma execEvalMinMax_eq (totally : ComparesTotally cmp isValue) (args : List SqlValue) (res : NullableDatum)
    (values : ∀ d, some d ∈ args → isValue d) :
    (execEvalMinMax greatest cmp args res).sql = firstExtreme greatest cmp args ∧
      ((execEvalMinMax greatest cmp args res).sql = none ↔ ∀ arg ∈ args, arg = none) := by
  unfold firstExtreme
  obtain ⟨list, null⟩ | ⟨before, r, behind, first, list, found⟩ :=
    execEvalMinMax_cases totally args res values
  · rw [list, null]
    exact ⟨rfl, fun _ => List.filterMap_eq_nil_iff.mp list, fun _ => rfl⟩
  · have member : some r ∈ args :=
      List.reduceOption_mem_iff.mp (list ▸ List.mem_append_right before List.mem_cons_self)
    rw [list, found, first.find?]
    exact ⟨rfl, nofun, fun all => all (some r) member⟩

end Preorder

/-! ## The expression -/

/-- The out-of-line function of the step is `execEvalMinMax`, whatever the result was before. -/
def EvaluatesMinMax (w : World) (greatest : Bool) (f : Func) (cmp : Datum → Datum → NullableDatum) : Prop :=
  ∀ (trace : List Call) (args : List SqlValue), ∃ res : NullableDatum,
    w.answer trace (.helper (.minMax greatest f) args) = .ok [execEvalMinMax greatest cmp args res]

/-- **LEAST and GREATEST.** For a comparison function that is a total preorder and never returns
NULL, `ExecEvalMinMax` returns NULL exactly if all arguments are NULL, and otherwise the first
argument that is less, or greater, than or equal to all others. The program of the expression
leaves this value for the values of its arguments. -/
theorem execEvalMinMax_firstExtreme (greatest : Bool) (f : Func) (cmp : Datum → Datum → NullableDatum)
    (isValue : Datum → Prop) (totally : ComparesTotally cmp isValue) :
    (∀ (args : List SqlValue) (res : NullableDatum), (∀ d, some d ∈ args → isValue d) →
      (execEvalMinMax greatest cmp args res).sql = firstExtreme greatest cmp args ∧
        ((execEvalMinMax greatest cmp args res).sql = none ↔ ∀ arg ∈ args, arg = none)) ∧
    ∀ (w : World) (setup : Setup) (minmaxtype : TypeRef) (args : List Node) (m : Machine) (slots : SlotName → Slot)
      (values : List SqlValue) (trace trace₁ : List Call),
      let e : Node := .minMaxExpr greatest minmaxtype f args
      EvaluatesMinMax w greatest f cmp → e.proper = true →
      (Source.expr e).deform w setup m.slots m.trace = .value slots trace →
      Loaded (execInitExpr setup e).stores m →
      listValue w slots setup args (.top w) trace = .value values trace₁ →
      (∀ d, some d ∈ values → isValue d) →
      ∃ m', execInterpExpr w (execInitExpr setup e).steps m = .finished m' ∧
        (m'.mem .result).sql = firstExtreme greatest cmp values := by
  refine ⟨fun args res values => execEvalMinMax_eq totally args res values, ?_⟩
  intro w setup minmaxtype args m slots values trace trace₁ e evaluates proper deformed loaded listed known
  obtain ⟨W, outcome⟩ := execInitExpr_outcome proper deformed loaded
  obtain ⟨res, answered⟩ := evaluates trace₁ values
  have evaluated : e.value w slots setup (.top w) trace =
      .value (execEvalMinMax greatest cmp values res).sql (trace₁ ++ [.helper (.minMax greatest f) values]) := by
    show Eval.bind (listValue w slots setup args (.top w)) (fun values =>
      Eval.bind (Eval.call w (.helper (.minMax greatest f) values)) fun ds => Eval.pure (returned ds).sql) trace = _
    simp only [Eval.bind, listed, Eval.call, answered]
    rfl
  rw [evaluated] at outcome
  obtain ⟨m', finished, _, _, held⟩ := outcome
  exact ⟨m', finished, held.trans (execEvalMinMax_eq totally values res known).1⟩

def compareTens (a b : Datum) : NullableDatum where
  value := if a.toNat / 10 < b.toNat / 10 then -1 else if b.toNat / 10 < a.toNat / 10 then 1 else 0
  isnull := false

lemma compareTens_int (a b : Datum) : datumGetInt32 (compareTens a b).value =
      if a.toNat / 10 < b.toNat / 10 then -1 else if b.toNat / 10 < a.toNat / 10 then 1 else 0 := by
  unfold compareTens
  dsimp only
  split_ifs <;> decide

lemma compareTens_totally : ComparesTotally compareTens fun _ => True where
  notNull _ _ _ _ := rfl
  swap a b _ _ := by
    rw [compareTens_int, compareTens_int]
    split_ifs <;> omega
  trans a b c _ _ _ := by
    rw [compareTens_int, compareTens_int, compareTens_int]
    split_ifs <;> omega

def tensWorld : World where
  answer _ c := match c with
    | .helper (.minMax greatest _) args => .ok [execEvalMinMax greatest compareTens args nullDatum]
    | _ => .error "not called"
  caseValue := nullDatum
  domainValue := nullDatum
  aggValue _ := nullDatum

/-- `LEAST(25, NULL, 13, 11)` is 13. -/
theorem firstExtreme_tens :
    ∃ m', execInterpExpr tensWorld (execInitExpr sampleSetup (.minMaxExpr false { oid := 23, name := "integer" } int4eq
        [.const { value := 25, isnull := false }, .const nullDatum, .const { value := 13, isnull := false },
          .const { value := 11, isnull := false }])).steps (columnMachine nullDatum) = .finished m' ∧
      (m'.mem .result).sql = some 13 :=
  (execEvalMinMax_firstExtreme false int4eq compareTens (fun _ => True) compareTens_totally).2 tensWorld sampleSetup
    { oid := 23, name := "integer" }
    [.const { value := 25, isnull := false }, .const nullDatum, .const { value := 13, isnull := false },
      .const { value := 11, isnull := false }]
    (columnMachine nullDatum) (columnMachine nullDatum).slots [some 25, none, some 13, some 11] [] []
    (fun _ _ => ⟨nullDatum, rfl⟩) (by decide) rfl nofun rfl fun _ _ => trivial

end Hex.Compiler
