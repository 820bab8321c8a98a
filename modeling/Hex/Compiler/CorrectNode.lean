/-
# Compiler.CorrectNode — compiled expressions have their value

The induction over nodes: **`Node.implements`** puts the lemmas for the forms of expressions
together: the code of every proper tree computes the value of the tree.
-/
import Hex.Compiler.CorrectAccess

namespace Hex.Compiler

open Theory.BlockCode

/-! ## Lists of expressions -/

/-- The code of a node computes its value where the result cell is apart from the placeholders. -/
def Evaluates (w : World) (slots : SlotName → Slot) (setup : Setup) (u : Bool) (n : Node) : Prop :=
  Implements w slots u false (gen setup n) (n.value w slots setup)

section Lists

variable {w : World} {slots : SlotName → Slot} {setup : Setup} {u : Bool}

lemma implements_arg {arg : Node} (evaluates : Evaluates w slots setup u arg) : Implements w slots u false
      (fun s c => match arg.const? with
        | some con => Gen.store c con
        | none => gen setup arg s c)
      (arg.value w slots setup) := by
  cases arg with
  | const con => exact implements_store con
  | _ => exact evaluates

lemma fillsCells_funcArgs : ∀ args : List Node, (∀ e ∈ args, Evaluates w slots setup u e) →
    FillsCells w slots u (genFuncArgs setup args) args.length (listValue w slots setup args)
  | [], _ => by
    have none : genFuncArgs setup [] = fun _ _ => .nop := by
      funext s cells
      simp only [genFuncArgs]
    rw [none]
    exact fillsCells_nil
  | e :: rest, all =>
    fillsCells_cons _ (fun s c cells => rfl) (implements_arg (all e List.mem_cons_self))
      (fillsCells_funcArgs rest fun e' member => all e' (List.mem_cons_of_mem e member))

lemma fillsCells_array : ∀ args : List Node, (∀ e ∈ args, Evaluates w slots setup u e) →
    FillsCells w slots u (genArray setup args) args.length (listValue w slots setup args)
  | [], _ => by
    have none : genArray setup [] = fun _ _ => .nop := by
      funext s cells
      simp only [genArray]
    rw [none]
    exact fillsCells_nil
  | e :: rest, all =>
    fillsCells_cons _ (fun s c cells => rfl) (all e List.mem_cons_self)
      (fillsCells_array rest fun e' member => all e' (List.mem_cons_of_mem e member))

lemma fillsCells_row : ∀ (args : List Node) (attrs : List RowAttr), (∀ e ∈ args, Evaluates w slots setup u e) →
    FillsCells w slots u (fun s cells => genRow setup args s attrs cells) (min args.length attrs.length)
      (rowValue w slots setup args attrs)
  | [], attrs, _ => by
    have none : (fun s cells => genRow setup [] s attrs cells) = fun _ _ => .nop := by
      funext s cells
      simp only [genRow]
    rw [none, List.length_nil, Nat.zero_min]
    exact fillsCells_nil
  | _ :: _, [], _ => by
    simp only [genRow, List.length_nil, Nat.min_zero]
    exact fillsCells_nil
  | e :: rest, att :: attrs, all => by
    have head : Implements w slots u false
        (fun s c => if att.attisdropped then .step (.const c nullDatum) else gen setup e s c)
        (fun env => if att.attisdropped then pure none else e.value w slots setup env) := by
      cases att.attisdropped with
      | true => exact implements_const nullDatum
      | false => exact all e List.mem_cons_self
    rw [List.length_cons, List.length_cons, Nat.succ_min_succ]
    exact fillsCells_cons (fun s cells => genRow setup (e :: rest) s (att :: attrs) cells) (fun s c cells => rfl) head
      (fillsCells_row rest attrs fun e' member => all e' (List.mem_cons_of_mem e member))

/-- Only as many cells are used as there are columns with an argument. -/
lemma genRow_take : ∀ (args : List Node) (s : Scope) (attrs : List RowAttr) (cells : List Cell),
    genRow setup args s attrs cells = genRow setup args s attrs (cells.take (min args.length attrs.length))
  | [], _, _, _ | _ :: _, _, [], _ | _ :: _, _, _ :: _, [] => by simp [genRow]
  | e :: rest, s, att :: attrs, c :: cells => by
    rw [List.length_cons, List.length_cons, Nat.succ_min_succ, List.take_succ_cons]
    simp only [genRow]
    rw [genRow_take rest s attrs cells]

/-! ## Forms -/

lemma implements_rowExpr {a : Bool} (rowType : Oid) (attrs : List RowAttr) (args : List Node)
    (all : ∀ e ∈ args, Evaluates w slots setup u e) :
    Implements w slots u a (gen setup (.rowExpr rowType attrs args))
      ((Node.rowExpr rowType attrs args).value w slots setup) := by
  obtain ⟨k, total⟩ : ∃ k, max args.length attrs.length = min args.length attrs.length + k :=
    ⟨max args.length attrs.length - min args.length attrs.length, by omega⟩
  have row := @implements_row w slots u a _ _ _ k (.row rowType) (fillsCells_row args attrs all)
  have code : gen setup (.rowExpr rowType attrs args) = fun s res =>
      .palloc (min args.length attrs.length + k) fun h =>
        (genNulls (min args.length attrs.length) (workCells h (min args.length attrs.length + k))).seq <|
        (genRow setup args s attrs (workCells h (min args.length attrs.length))).seq <|
        .step (.eval (.row rowType) (workCells h (min args.length attrs.length + k)) [res]) := by
    funext s res
    simp only [gen, total]
    congr 1
    funext h
    rw [genRow_take, workCells_add, List.take_left' (length_workCells _ _)]
  have value : (Node.rowExpr rowType attrs args).value w slots setup = fun env =>
      rowValue w slots setup args attrs env >>= fun vs =>
        Eval.helper w (.row rowType) (padNulls (min args.length attrs.length + k) vs) := by
    funext env
    simp only [Node.value, total]
  rw [code, value]
  exact row

/-- The remaining arguments of an AND or OR, from the one at `off` on. -/
lemma goesOn_rest (boolop : AndOr) (nargs : Nat) (rest : List Node) (e : Node) (off : Nat)
    (arg : Evaluates w slots setup u e) (later : 0 < off) (length : off + 1 + rest.length = nargs)
    (all : (∀ e ∈ rest, Evaluates w slots setup u e)) :
    GoesOn w slots u boolop (fun s res anynull => genBoolArgs setup (e :: rest) s boolop.toBoolOp nargs res anynull
    off) (fun acc env => listJunction w slots setup (e :: rest) boolop acc env) := by
  cases rest with
  | nil =>
    have last : ∀ res anynull, boolOpcode boolop.toBoolOp off nargs res anynull =
        .boolStep boolop .last res anynull := by
      intro res anynull
      have pos : stepPos off nargs = .last := by
        simp only [List.length_nil] at length
        simp only [stepPos, if_neg (Nat.ne_of_gt later), if_pos length]
      cases boolop <;> simp only [AndOr.toBoolOp, boolOpcode, pos]
    simp only [genBoolArgs, last]
    exact goesOn_last arg
  | cons e' rest =>
    have middle : ∀ res anynull, boolOpcode boolop.toBoolOp off nargs res anynull =
        .boolStep boolop .middle res anynull := by
      intro res anynull
      have pos : stepPos off nargs = .middle := by
        simp only [List.length_cons] at length
        simp only [stepPos, if_neg (Nat.ne_of_gt later), if_neg (by omega : ¬ off + 1 = nargs)]
      cases boolop <;> simp only [AndOr.toBoolOp, boolOpcode, pos]
    have others := goesOn_rest boolop nargs rest e' (off + 1) (all e' List.mem_cons_self) (Nat.succ_pos off)
      (by simp only [List.length_cons] at length; omega) fun e member => all e (List.mem_cons_of_mem e' member)
    intro K s res anynull h env m context junction relies
    beta_reduce at relies ⊢
    rw [genBoolArgs, middle] at relies ⊢
    exact goesOn_middle arg others context junction relies

lemma implements_andOr (boolop : AndOr) (first second : Node) (rest : List Node)
    (all : ∀ e ∈ first :: second :: rest, Evaluates w slots setup u e) :
    Implements w slots u false (gen setup (.boolExpr boolop.toBoolOp (first :: second :: rest)))
      (fun env => listJunction w slots setup (first :: second :: rest) boolop (some (!boolop.dominant)) env) := by
  have goesOn := goesOn_rest boolop (first :: second :: rest).length rest second 1
    (all second (List.mem_cons_of_mem _ List.mem_cons_self)) (by decide)
    (by simp only [List.length_cons]; omega)
    fun e member => all e (List.mem_cons_of_mem _ (List.mem_cons_of_mem _ member))
  have whole := implements_junction (all first List.mem_cons_self) goesOn
  have value (env : Env) : listJunction w slots setup (first :: second :: rest) boolop (some (!boolop.dominant)) env =
      (first.value w slots setup env >>= fun v => Eval.truth v >>= fun a =>
        if a = some boolop.dominant then pure (boolSql a)
        else listJunction w slots setup (second :: rest) boolop a env) := by
    rw [listJunction]
    congr 1
    funext v
    congr 1
    funext b
    have neutral : boolop.connect (some (!boolop.dominant)) b = b := boolop.soFar_connect b
    rw [neutral]
  simp only [value]
  cases boolop <;> exact whole

lemma implements_negation (arg : Node) (evaluates : Evaluates w slots setup u arg) :
    Implements w slots u false (gen setup (.boolExpr .not [arg])) ((Node.boolExpr .not [arg]).value w slots setup) :=
  implements_not evaluates

lemma implements_boolExpr (boolop : BoolOp) (args : List Node) (asserted : boolop.asserts args.length = true)
    (all : ∀ e ∈ args, Evaluates w slots setup u e) :
    Implements w slots u false (gen setup (.boolExpr boolop args)) ((Node.boolExpr boolop args).value w slots setup) := by
  match boolop, args, asserted with
  | .not, [arg], _ => exact implements_negation arg (all arg List.mem_cons_self)
  | .and, first :: second :: rest, _ => exact implements_andOr .and first second rest all
  | .or, first :: second :: rest, _ => exact implements_andOr .or first second rest all

lemma coalesces_list : ∀ args : List Node, (∀ e ∈ args, Evaluates w slots setup u e) →
    Coalesces w slots u (genCoalesce setup args) (listCoalesce w slots setup args)
  | [], _ => coalesces_nil
  | e :: rest, all => by
    intro K s res h env m context older clear relies _
    exact computes_coalesceArg (all e List.mem_cons_self)
      (coalesces_list rest fun e' member => all e' (List.mem_cons_of_mem e member)) context older clear rfl relies

lemma implements_coalesceExpr (args : List Node) (nonempty : args ≠ []) (all : ∀ e ∈ args, Evaluates w slots setup u e) :
    Implements w slots u false (gen setup (.coalesceExpr args)) ((Node.coalesceExpr args).value w slots setup) := by
  cases args with
  | nil => exact absurd rfl nonempty
  | cons first rest =>
    intro K s res h env m context older clear relies
    exact LeadsTo.block (computes_coalesceArg (all first List.mem_cons_self)
      (coalesces_list rest fun e member => all e (List.mem_cons_of_mem first member)) context older clear rfl relies)

/-- Conditions and results of arms. -/
def ArmsEvaluate (w : World) (slots : SlotName → Slot) (setup : Setup) (u : Bool) (arms : List CaseWhen) : Prop :=
  ∀ expr result, CaseWhen.mk expr result ∈ arms → Evaluates w slots setup true expr ∧ Evaluates w slots setup u result

lemma selects_arms : ∀ arms : List CaseWhen, ArmsEvaluate w slots setup u arms →
    Selects w slots u (genCaseArms setup arms) (armsSelect w slots setup arms)
  | [], _ => selects_nil
  | .mk expr result :: rest, all => by
    obtain ⟨condition, value⟩ := all expr result List.mem_cons_self
    exact selects_cons condition value
      (selects_arms rest fun expr' result' member => all expr' result' (List.mem_cons_of_mem _ member))

lemma implements_caseExpr (arg : Option Node) (varlena : Bool) (arms : List CaseWhen) (default : Node)
    (test : ∀ e, arg = some e → Evaluates w slots setup u e) (results : ArmsEvaluate w slots setup u arms)
    (otherwise : Evaluates w slots setup u default) :
    Implements w slots u false (gen setup (.caseExpr arg varlena arms default))
      ((Node.caseExpr arg varlena arms default).value w slots setup) := by
  have selects := selects_arms arms results
  cases arg with
  | none => exact implements_case_none selects otherwise
  | some e =>
    have tested : Implements w slots u false (fun s c => genCaseArg setup (some e) s varlena c)
        (fun env => e.value w slots setup env >>= fun x => if varlena then readOnly w x else pure x) := by
      cases varlena with
      | true => exact implements_then (test e rfl) fun c => computes_makeReadonly c c
      | false =>
        intro K s c h env m context older clear relies
        have value := test e rfl context older clear (Gen.relies_seq.mp relies).1
        exact Computes.seq value (fun _ => id) fun v m1 _ held => Computes.pure rfl held
    exact implements_case_some tested selects otherwise

/-- Both sides of every column are computed. -/
def ColumnsEvaluate (w : World) (slots : SlotName → Slot) (setup : Setup) (u : Bool) (columns : List RowColumn) : Prop :=
  ∀ oper left right, RowColumn.mk oper left right ∈ columns →
    Evaluates w slots setup u left ∧ Evaluates w slots setup u right

lemma compares_columns : ∀ columns : List RowColumn, ColumnsEvaluate w slots setup u columns →
    Compares w slots u (genRowCompare setup columns) (columnsCompare w slots setup columns)
  | [], _ => compares_nil
  | .mk oper left right :: rest, all => by
    obtain ⟨first, second⟩ := all oper left right List.mem_cons_self
    intro K s res h env m context older clear relies _
    exact computes_column first second
      (compares_columns rest fun oper' left' right' member => all oper' left' right' (List.mem_cons_of_mem _ member))
      context older clear rfl relies

lemma implements_rowCompareExpr (rctype : RowCompareType) (columns : List RowColumn)
    (all : ColumnsEvaluate w slots setup u columns) :
    Implements w slots u false (gen setup (.rowCompareExpr rctype columns))
      ((Node.rowCompareExpr rctype columns).value w slots setup) := by
  intro K s res h env m context older clear relies
  cases columns with
  | nil =>
    -- no columns: the comparison is the constant 0
    refine computes_rowFinal rctype (Or.inl rfl) ?_
    refine Computes.last (a := some 0) rfl rfl (Frame.set (Or.inl rfl) { value := 0, isnull := false }) ?_
    simp only [RowResult, Machine.mem_set_self]
    rfl
  | cons column rest =>
    obtain ⟨oper, left, right⟩ := column
    obtain ⟨first, second⟩ := all oper left right List.mem_cons_self
    refine computes_rowFinal rctype (Or.inl rfl) (computes_rowBlock ?_)
    have reliesColumns := (Gen.relies_seq.mp (Gen.relies_seq.mp relies).1).1
    exact computes_column first second
      (compares_columns rest fun oper' left' right' member => all oper' left' right' (List.mem_cons_of_mem _ member))
      context older clear rfl reliesColumns

lemma subscripts_list (container : Oid) (isupper isAssignment : Bool) : ∀ (list : List (Option Node)) (i : Nat),
    (∀ e, some e ∈ list → Evaluates w slots setup u e) →
    Subscripts w slots u (fun s res sub => genSubscripts setup list s container res sub isupper isAssignment i)
      (fun env => subscriptsValue w slots setup list env container isupper isAssignment i)
  | [], _, _ => subscripts_nil
  | none :: rest, i, all =>
    subscripts_list container isupper isAssignment rest (i + 1) fun e member => all e (List.mem_cons_of_mem _ member)
  | some e :: rest, i, all =>
    subscripts_cons (.subscriptingRef container isupper i) isAssignment (all e List.mem_cons_self)
      (subscripts_list container isupper isAssignment rest (i + 1) fun e' member => all e' (List.mem_cons_of_mem _ member))

lemma updates_list : ∀ (newvals : List Node) (fieldnums : List Int),
    (∀ e ∈ newvals, Implements w slots e.usesCase e.inPlace (gen setup e) (e.value w slots setup) ∧
      (e.usesCase = true → e.inPlace = true)) →
    Updates w slots (fun s base n => genNewvals setup newvals s fieldnums base n)
      (fun fields env => newvalsValue w slots setup newvals fieldnums fields env)
  | [], _, _ | _ :: _, [], _ => by
    simp only [genNewvals, newvalsValue]
    exact updates_nil
  | e :: rest, fieldnum :: fieldnums, all => by
    obtain ⟨value, inPlace⟩ := all e List.mem_cons_self
    exact updates_cons fieldnum value inPlace
      (updates_list rest fieldnums fun e' member => all e' (List.mem_cons_of_mem e member))

lemma checksDomain_list (typeName : String) (varlena : Bool) : ∀ constraints : List DomainConstraint,
    (∀ name expr, DomainConstraint.check name expr ∈ constraints → Evaluates w slots setup u expr) →
    ChecksDomain w slots u
      (fun s res check domainval => genConstraints setup constraints s typeName varlena res check domainval)
      (fun env x value => constraintsCheck w slots setup constraints env typeName varlena x value)
  | [], _ => checksDomain_nil
  | .notnull _ :: rest, all =>
    checksDomain_notnull typeName
      (checksDomain_list typeName varlena rest fun name expr member => all name expr (List.mem_cons_of_mem _ member))
  | .check name expr :: rest, all =>
    checksDomain_check typeName name varlena (all name expr List.mem_cons_self)
      (checksDomain_list typeName varlena rest fun name expr member => all name expr (List.mem_cons_of_mem _ member))

end Lists

/-! ## The induction -/

section Induction

lemma usesCase_of_mem {e : Node} : ∀ {args : List Node}, e ∈ args → e.usesCase = true → listUsesCase args = true
  | _ :: _, member, uses => by
    rcases List.mem_cons.mp member with rfl | later
    · simp [listUsesCase, uses]
    · simp [listUsesCase, usesCase_of_mem later uses]

lemma subscriptUsesCase_of_mem {e : Node} : ∀ {list : List (Option Node)}, some e ∈ list → e.usesCase = true →
    subscriptsUseCase list = true
  | none :: _, member, uses => by
    rcases List.mem_cons.mp member with eq | later
    · exact nomatch eq
    · simp [subscriptsUseCase, subscriptUsesCase_of_mem later uses]
  | some _ :: _, member, uses => by
    rcases List.mem_cons.mp member with eq | later
    · cases eq
      simp [subscriptsUseCase, uses]
    · simp [subscriptsUseCase, subscriptUsesCase_of_mem later uses]

lemma armUsesCase_of_mem {expr result : Node} : ∀ {arms : List CaseWhen}, .mk expr result ∈ arms →
    result.usesCase = true → armsUseCase arms = true
  | .mk _ _ :: _, member, uses => by
    rcases List.mem_cons.mp member with eq | later
    · cases eq
      simp [armsUseCase, uses]
    · simp [armsUseCase, armUsesCase_of_mem later uses]

lemma columnUsesCase_of_mem {oper : RowOper} {left right : Node} : ∀ {columns : List RowColumn},
    .mk oper left right ∈ columns → (left.usesCase || right.usesCase) = true → columnsUseCase columns = true
  | .mk _ _ _ :: _, member, uses => by
    rcases List.mem_cons.mp member with eq | later
    · cases eq
      simp [columnsUseCase, uses]
    · simp [columnsUseCase, columnUsesCase_of_mem later uses]

lemma constraintUsesCase_of_mem {name : String} {expr : Node} : ∀ {constraints : List DomainConstraint},
    .check name expr ∈ constraints → expr.usesCase = true → constraintsUseCase constraints = true
  | .notnull _ :: _, member, uses => by
    rcases List.mem_cons.mp member with eq | later
    · exact nomatch eq
    · simp [constraintsUseCase, constraintUsesCase_of_mem later uses]
  | .check _ _ :: _, member, uses => by
    rcases List.mem_cons.mp member with eq | later
    · cases eq
      simp [constraintsUseCase, uses]
    · simp [constraintsUseCase, constraintUsesCase_of_mem later uses]

variable (w : World) (slots : SlotName → Slot) (setup : Setup)

/-- The statement of the induction: the code computes the value, also into the cell of the test
value where the tree reads it in time. -/
def Node.Implemented (n : Node) : Prop :=
  Implements w slots n.usesCase n.inPlace (gen setup n) (n.value w slots setup)

variable {w slots setup}

lemma Node.Implemented.evaluates {n : Node} {u : Bool} (code : n.Implemented w slots setup)
    (sub : n.usesCase = true → u = true) : Evaluates w slots setup u n :=
  Implements.weaken code sub fun _ => rfl

lemma evaluates_list {args : List Node} {u : Bool} (all : ∀ e ∈ args, e.Implemented w slots setup)
    (sub : listUsesCase args = true → u = true) : ∀ e ∈ args, Evaluates w slots setup u e :=
  fun e member => (all e member).evaluates fun uses => sub (usesCase_of_mem member uses)

/-- The code of a step in place of an argument. -/
lemma implemented_call {args : List Node} {a : Bool} {op : Cell → List Cell → Op}
    {f : List SqlValue → Eval SqlValue} (all : ∀ e ∈ args, e.Implemented w slots setup)
    (step : ∀ res cells m h, cells.length = args.length → StepYields w (op res cells) res m h
      (f (m.args cells) m.trace)) :
    Implements w slots (listUsesCase args) a (fun s res => .palloc args.length fun h =>
        (genFuncArgs setup args s (workCells h args.length)).seq (.step (op res (workCells h args.length))))
      (fun env => listValue w slots setup args env >>= f) :=
  implements_call (fillsCells_funcArgs args (evaluates_list all id)) step

lemma computes_onTwo (op : List Cell → Op) (f : SqlValue → SqlValue → Eval SqlValue) {res : Cell} {m : Machine}
    {h : Nat} {cells : List Cell} (length : cells.length = 2)
    (step : ∀ c0 c1, StepYields w (op [c0, c1]) res m h (f (m.mem c0).sql (m.mem c1).sql m.trace)) :
    StepYields w (op cells) res m h (onTwo f (m.args cells) m.trace) := by
  obtain ⟨c0, c1, rfl⟩ := List.length_eq_two.mp length
  exact step c0 c1

lemma implemented_caseExpr {arg : Option Node} {varlena : Bool} {arms : List CaseWhen} {default : Node}
    (test : ∀ e, arg = some e → e.Implemented w slots setup)
    (results : ∀ expr result, CaseWhen.mk expr result ∈ arms →
      expr.Implemented w slots setup ∧ result.Implemented w slots setup)
    (otherwise : default.Implemented w slots setup) :
    (Node.caseExpr arg varlena arms default).Implemented w slots setup := by
  refine implements_caseExpr arg varlena arms default (fun e eq => ?_) (fun expr result member => ?_)
    (otherwise.evaluates fun uses => by simp [Node.usesCase, uses])
  · refine (test e eq).evaluates fun uses => ?_
    simp [Node.usesCase, eq, caseArgUsesCase, uses]
  · obtain ⟨condition, value⟩ := results expr result member
    exact ⟨condition.evaluates fun _ => rfl,
      value.evaluates fun uses => by simp [Node.usesCase, armUsesCase_of_mem member uses]⟩

lemma implemented_subscriptingRef {container : Oid} {refexpr : Node} {upper lower : List (Option Node)}
    {refassgnexpr : Option Node} (fits : (Node.subscriptingRef container refexpr upper lower refassgnexpr).fits = true)
    (ref : refexpr.Implemented w slots setup) (uppers : ∀ e, some e ∈ upper → e.Implemented w slots setup)
    (lowers : ∀ e, some e ∈ lower → e.Implemented w slots setup)
    (value : ∀ e, refassgnexpr = some e → e.Implemented w slots setup) :
    (Node.subscriptingRef container refexpr upper lower refassgnexpr).Implemented w slots setup := by
  -- the subscripts see the test value only if the container did not go into its cell
  obtain ⟨us, reads⟩ : ∃ us, us = (subscriptsUseCase upper || subscriptsUseCase lower) := ⟨_, rfl⟩
  have arg : Implements w slots (refexpr.usesCase || subscriptsUseCase upper || subscriptsUseCase lower)
      (refexpr.inPlace && !subscriptsUseCase upper && !subscriptsUseCase lower) (gen setup refexpr)
      (refexpr.value w slots setup) :=
    Implements.weaken ref (fun uses => by simp [uses]) fun notInPlace => by simp [notInPlace]
  have first := subscripts_list (u := us) container true refassgnexpr.isSome upper 0 fun e member =>
    (uppers e member).evaluates fun uses => by simp [reads, subscriptUsesCase_of_mem member uses]
  have second := subscripts_list (u := us) container false refassgnexpr.isSome lower 0 fun e member =>
    (lowers e member).evaluates fun uses => by simp [reads, subscriptUsesCase_of_mem member uses]
  have apart : us = true → (refexpr.usesCase || subscriptsUseCase upper || subscriptsUseCase lower) = true ∧
      (refexpr.inPlace && !subscriptsUseCase upper && !subscriptsUseCase lower) = false := by
    rw [reads, Bool.or_eq_true]
    rintro (uses | uses) <;> simp [uses]
  have assigns : AssignsElement w slots
      (fun s res prev replace => genAssignment setup refassgnexpr s container res prev replace)
      (fun env x => assignmentValue w slots setup refassgnexpr env container x) := by
    cases refassgnexpr with
    | none => exact assignsElement_none container
    | some e =>
      simp only [Node.fits, Bool.or_eq_true, Bool.not_eq_true'] at fits
      exact assignsElement_some container (isAssignmentIndirectionExpr e) (value e rfl)
        fun uses => fits.resolve_left (by simp [uses])
  have whole := implements_subscriptingRef refassgnexpr.isSome arg first second apart assigns
  have code : gen setup (.subscriptingRef container refexpr upper lower refassgnexpr) = fun s res =>
      .palloc 3 fun h =>
        .block <|
          (Gen.inner (gen setup refexpr s res)).seq <|
          (if refassgnexpr.isSome then Gen.nop else Gen.jump (.jumpIfNull res) [0] Gen.first_inside).seq <|
          (genSubscripts setup upper s container res (.work h) true refassgnexpr.isSome 0).seq <|
          (genSubscripts setup lower s container res (.work h) false refassgnexpr.isSome 0).seq <|
          .inner (genAssignment setup refassgnexpr s container res (.work (h + 1)) (.work (h + 2))) := by
    funext s res
    rw [gen]
  have value : (Node.subscriptingRef container refexpr upper lower refassgnexpr).value w slots setup = fun env =>
      refexpr.value w slots setup env >>= fun v => if !refassgnexpr.isSome && v.isNone then pure none else
        subscriptsValue w slots setup upper env container true refassgnexpr.isSome 0 >>= fun ok =>
          if !ok then pure none else
        subscriptsValue w slots setup lower env container false refassgnexpr.isSome 0 >>= fun ok =>
          if !ok then pure none else assignmentValue w slots setup refassgnexpr env container v := by
    funext env
    rw [Node.value]
  unfold Node.Implemented
  rw [code, value]
  exact whole

lemma implemented_coerceToDomain {typeName : String} {varlena : Bool} {arg : Node}
    {constraints : List DomainConstraint} (value : arg.Implemented w slots setup)
    (checks : ∀ name expr, DomainConstraint.check name expr ∈ constraints → expr.Implemented w slots setup) :
    (Node.coerceToDomain typeName varlena arg constraints).Implemented w slots setup := by
  have coerced : Implements w slots (arg.usesCase || constraintsUseCase constraints)
      (arg.inPlace && !constraintsUseCase constraints) (gen setup arg) (arg.value w slots setup) :=
    Implements.weaken value (fun uses => by simp [uses]) fun notInPlace => by simp [notInPlace]
  have constrains := checksDomain_list (u := constraintsUseCase constraints) typeName varlena constraints
    fun name expr member => (checks name expr member).evaluates fun uses => constraintUsesCase_of_mem member uses
  have apart : constraintsUseCase constraints = true → (arg.usesCase || constraintsUseCase constraints) = true ∧
      (arg.inPlace && !constraintsUseCase constraints) = false := fun uses => by simp [uses]
  exact implements_coerceToDomain coerced constrains apart

variable (w slots setup)

mutual

/-- **The code of every proper tree computes its value.** -/
theorem Node.implements (n : Node) (proper : n.every Node.fits = true) : n.Implemented w slots setup := by
  cases n with simp only [Node.every, Bool.and_eq_true] at proper
  | var v => exact implements_var v
  | const con => exact implements_const con
  | param p => exact implements_helper (.param p)
  | aggref aggno _ | windowFunc aggno _ _ => exact implements_load (w.aggValue aggno) fun _ _ => rfl
  | groupingFunc | subPlan | alternativeSubPlan | sqlValueFunction | currentOfExpr | nextValueExpr => exact implements_helper _
  | caseTestExpr => exact implements_caseTest
  | coerceToDomainValue => exact implements_domainTest
  | subscriptingRef container refexpr refupperindexpr reflowerindexpr refassgnexpr =>
    obtain ⟨⟨⟨⟨fits, ref⟩, upper⟩, lower⟩, assgn⟩ := proper
    exact implemented_subscriptingRef fits (refexpr.implements ref) (implements_subscripts refupperindexpr upper)
      (implements_subscripts reflowerindexpr lower) (implements_option refassgnexpr assgn)
  | funcExpr f args | opExpr f args =>
    exact implemented_call (implements_list args proper.2)
      fun res cells m h _ => computes_funcOpcode setup res f cells m h
  | distinctExpr f args =>
    simp only [Node.fits, beq_iff_eq] at proper
    exact implemented_call (implements_list args proper.2) fun res cells m h length =>
      computes_onTwo (fun cells => .distinct res { func := f, args := cells }) (isDistinct w f)
        (length.trans proper.1) fun c0 c1 => computes_distinct res f c0 c1 m h
  | nullIfExpr f args =>
    simp only [Node.fits, beq_iff_eq] at proper
    exact implemented_call (implements_list args proper.2) fun res cells m h length =>
      computes_onTwo (fun cells => .nullif res { func := f, args := cells }) (nullIf w f)
        (length.trans proper.1) fun c0 c1 => computes_nullif res f c0 c1 m h
  | scalarArrayOpExpr f useOr scalararg arrayarg =>
    have scalar := (scalararg.implements proper.1.2).evaluates (u := scalararg.usesCase || arrayarg.usesCase)
      fun uses => by simp [uses]
    have array : Implements w slots (scalararg.usesCase || arrayarg.usesCase) arrayarg.inPlace (gen setup arrayarg)
        (arrayarg.value w slots setup) :=
      Implements.weaken (arrayarg.implements proper.2) (fun uses => by simp [uses]) id
    exact implements_pair (.scalarArrayOp f useOr) scalar array
  | boolExpr boolop args =>
    simp only [Node.fits] at proper
    exact implements_boolExpr boolop args proper.1 (evaluates_list (implements_list args proper.2) id)
  | fieldSelect _ _ arg | arrayCoerceExpr _ arg _ | convertRowtypeExpr _ _ arg =>
    exact implements_then (arg.implements proper.2) fun res m h => computes_eval _ [res] res m h
  | fieldStore resulttype ncolumns arg newvals fieldnums =>
    simp only [Node.fits, List.all_eq_true, Bool.or_eq_true, Bool.not_eq_true'] at proper
    obtain ⟨⟨fits, proper⟩, news⟩ := proper
    have inPlace (e : Node) (member : e ∈ newvals) (uses : e.usesCase = true) : e.inPlace = true :=
      (fits e member).resolve_left (by simp [uses])
    exact implements_fieldStore resulttype ncolumns (arg.implements proper)
      (updates_list newvals fieldnums fun e member => ⟨implements_list newvals news e member, inPlace e member⟩)
  | relabelType arg => exact arg.implements proper.2
  | coerceViaIo outfunc infunc typioparam arg =>
    exact implements_ioCoerce outfunc infunc typioparam (arg.implements proper.2)
  | caseExpr arg varlena args defresult =>
    obtain ⟨⟨⟨_, test⟩, arms⟩, default⟩ := proper
    exact implemented_caseExpr (implements_option arg test) (implements_arms args arms) (defresult.implements default)
  | arrayExpr _ _ elements | minMaxExpr _ _ _ elements =>
    exact implements_call (fillsCells_array elements (evaluates_list (implements_list elements proper.2) id))
      fun res cells m h _ => computes_eval _ cells res m h
  | rowExpr rowType attrs args =>
    exact implements_rowExpr rowType attrs args (evaluates_list (implements_list args proper.2) id)
  | rowCompareExpr rctype columns =>
    refine implements_rowCompareExpr rctype columns fun oper left right member => ?_
    obtain ⟨first, second⟩ := implements_columns columns proper.2 oper left right member
    exact ⟨first.evaluates fun uses => columnUsesCase_of_mem member (by simp [uses]),
      second.evaluates fun uses => columnUsesCase_of_mem member (by simp [uses])⟩
  | coalesceExpr args =>
    simp only [Node.fits, Bool.not_eq_true', List.isEmpty_eq_false_iff] at proper
    exact implements_coalesceExpr args proper.1 (evaluates_list (implements_list args proper.2) id)
  | xmlExpr op namedArgs args =>
    have named := evaluates_list (u := listUsesCase namedArgs || listUsesCase args)
      (implements_list namedArgs proper.1.2) fun uses => by simp [uses]
    have rest := evaluates_list (u := listUsesCase namedArgs || listUsesCase args)
      (implements_list args proper.2) fun uses => by simp [uses]
    exact implements_call₂ (.xmlExpr op namedArgs.length) (fillsCells_array namedArgs named) (fillsCells_array args rest)
  | nullTest isNull argisrow arg =>
    cases argisrow with
    | true => exact implements_then (arg.implements proper.2) fun res m h => computes_eval (.rowNull isNull) [res] res m h
    | false => exact implements_then (arg.implements proper.2) (computes_nullTest isNull)
  | booleanTest booltesttype arg => exact implements_then (arg.implements proper.2) (computes_booleanTest booltesttype)
  | coerceToDomain typeName varlena arg constraints =>
    obtain ⟨⟨_, value⟩, checks⟩ := proper
    exact implemented_coerceToDomain (arg.implements value) (implements_constraints constraints checks)

lemma implements_list : ∀ args : List Node, listEvery Node.fits args = true → ∀ e ∈ args, e.Implemented w slots setup
  | [], _ => List.forall_mem_nil _
  | e :: rest, proper => by
    simp only [listEvery, Bool.and_eq_true] at proper
    exact List.forall_mem_cons.mpr ⟨e.implements proper.1, implements_list rest proper.2⟩

lemma implements_subscripts : ∀ list : List (Option Node), subscriptsEvery Node.fits list = true →
    ∀ e, some e ∈ list → e.Implemented w slots setup
  | [], _ => fun _ member => absurd member List.not_mem_nil
  | none :: rest, proper => by
    simp only [subscriptsEvery] at proper
    exact fun e' member => implements_subscripts rest proper e' (by simpa using member)
  | some e :: rest, proper => by
    simp only [subscriptsEvery, Bool.and_eq_true] at proper
    intro e' member
    rcases List.mem_cons.mp member with eq | later
    · exact Option.some.inj eq ▸ e.implements proper.1
    · exact implements_subscripts rest proper.2 e' later

lemma implements_option : ∀ arg : Option Node, optionEvery Node.fits arg = true → ∀ e, arg = some e →
    e.Implemented w slots setup
  | none, _ => fun _ eq => by cases eq
  | some e, proper => fun _ eq => Option.some.inj eq ▸ e.implements proper

lemma implements_arms : ∀ arms : List CaseWhen, armsEvery Node.fits arms = true →
    ∀ expr result, CaseWhen.mk expr result ∈ arms → expr.Implemented w slots setup ∧ result.Implemented w slots setup
  | [], _ => fun _ _ member => absurd member List.not_mem_nil
  | .mk expr result :: rest, proper => by
    simp only [armsEvery, Bool.and_eq_true] at proper
    intro expr' result' member
    rcases List.mem_cons.mp member with eq | later
    · obtain ⟨same, same'⟩ := CaseWhen.mk.inj eq
      exact ⟨same ▸ expr.implements proper.1.1, same' ▸ result.implements proper.1.2⟩
    · exact implements_arms rest proper.2 expr' result' later

lemma implements_columns : ∀ columns : List RowColumn, columnsEvery Node.fits columns = true →
    ∀ oper left right, RowColumn.mk oper left right ∈ columns →
      left.Implemented w slots setup ∧ right.Implemented w slots setup
  | [], _ => fun _ _ _ member => absurd member List.not_mem_nil
  | .mk oper left right :: rest, proper => by
    simp only [columnsEvery, Bool.and_eq_true] at proper
    intro oper' left' right' member
    rcases List.mem_cons.mp member with eq | later
    · obtain ⟨_, same, same'⟩ := RowColumn.mk.inj eq
      exact ⟨same ▸ left.implements proper.1.1, same' ▸ right.implements proper.1.2⟩
    · exact implements_columns rest proper.2 oper' left' right' later

lemma implements_constraints : ∀ constraints : List DomainConstraint, constraintsEvery Node.fits constraints = true →
    ∀ name expr, DomainConstraint.check name expr ∈ constraints → expr.Implemented w slots setup
  | [], _ => fun _ _ member => absurd member List.not_mem_nil
  | .notnull _ :: rest, proper => by
    simp only [constraintsEvery] at proper
    exact fun name' expr' member => implements_constraints rest proper name' expr' (by simpa using member)
  | .check name expr :: rest, proper => by
    simp only [constraintsEvery, Bool.and_eq_true] at proper
    intro name' expr' member
    rcases List.mem_cons.mp member with eq | later
    · exact (DomainConstraint.check.inj eq).2 ▸ expr.implements proper.1
    · exact implements_constraints rest proper.2 name' expr' later

end

end Induction

/-! ## Whole programs -/

/-- The values that the placeholders of a whole program stand for. -/
def Env.top (w : World) : Env := { caseval := w.caseValue.sql, domainval := w.domainValue.sql }

section Top

variable {w : World} {setup : Setup} {K : List (Cell × NullableDatum)} {h : Nat} {m : Machine}

/-- The placeholders of a whole program read the expression context. -/
lemma Context.top {u : Bool} (loaded : Loaded K m) : Context w m.slots K u .top (.top w) h m :=
  ⟨fun _ holds => holds.elim (fun read => nomatch read.2) nofun, fun _ => rfl, rfl, rfl, loaded⟩

/-- **An expression of a program is computed into the result of the program.** -/
theorem Node.computes_top {n : Node} (proper : n.every Node.fits = true) (loaded : Loaded K m)
    (relies : (gen setup n .top .result).Relies K h) :
    Computes (Writes (· = .result) h) m (n.value w m.slots setup (.top w) m.trace) Through
      (fun v m' => (m'.mem .result).sql = v) (eval (interpStep w) ((gen setup n .top .result).piece h).code m) :=
  n.implements w m.slots setup proper (.top loaded) (older_result h) ⟨nofun, nofun⟩ relies

end Top

end Hex.Compiler
