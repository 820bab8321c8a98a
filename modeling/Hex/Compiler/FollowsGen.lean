/-
# Compiler.FollowsGen — the emitted code follows the interpreter through every expression

The induction over trees. `gen_follows` puts the lemmas for the forms of expressions
together; there is one theorem for each function of `gen`.
-/
import Hex.Compiler.FollowsAccess
import Hex.Compiler.FollowsFlow
import Hex.Compiler.WellFormed

namespace Hex.Compiler

open Theory.BlockCode

section Steps

variable {w : World} {llvm : Llvm} {D : Set Cell} {res : Cell}

lemma steps_varOpcode (v : Var) : StepsOn w llvm (varOpcode v res) D [] (D \ {res}) := by
  unfold varOpcode
  split
  · exact steps_evalTo _ nofun
  · split
    · exact steps_evalTo _ nofun
    · exact steps_var _ _

lemma steps_boolTestOpcode (booltesttype : BoolTestType) (clean : res ∉ D) :
    StepsOn w llvm (boolTestOpcode booltesttype res) D [] D := by
  cases booltesttype
  case isUnknown => exact steps_nullTest true clean
  case isNotUnknown => exact steps_nullTest false clean
  all_goals exact steps_boolTest _ clean

lemma steps_nullTestOpcode (isNull argisrow : Bool) (clean : res ∉ D) :
    StepsOn w llvm (if argisrow then .eval (.rowNull isNull) [res] [res] else .nullTest res isNull) D [] D := by
  cases argisrow with
  | false => exact steps_nullTest isNull clean
  | true =>
    refine (steps_evalTo _ (List.forall_mem_singleton.mpr clean)).mono ?_
    exact fun c inside => inside.1

end Steps

section Induction

variable {w : World} {llvm : Llvm}

lemma follows_leaf {uses first : Bool} (helper : Helper) :
    Follows w llvm uses first fun _ res => .step (.eval helper [] [res]) :=
  follows_step fun _ => steps_evalTo helper nofun

lemma follows_caseTestExpr : Follows w llvm true true fun s res => .step (.caseTestVal res s.caseval) :=
  follows_step fun entry => steps_caseTestVal fun c eq => (entry.held c (Or.inl ⟨rfl, eq⟩)).2

lemma follows_coerceToDomainValue {uses first : Bool} :
    Follows w llvm uses first fun s res => .step (.domainTestVal res s.domainval) :=
  follows_step fun entry => steps_domainTestVal fun c eq => (entry.held c (Or.inr eq)).2

variable (keeps : llvm.Keeps) (setup : Setup)

include keeps

-- some members of the block need `keeps` only for the others
set_option linter.unusedSectionVars false in
mutual

/-- **Both executors run the code of an expression to the same value**: wherever the code
of a well-formed tree is entered, they agree at its end, on the result too. -/
theorem gen_follows (n : Node) (wf : n.wellFormed = true) : Follows w llvm n.usesCase n.readsFirst (gen setup n) := by
  cases n with simp only [Node.wellFormed, Bool.and_eq_true] at wf
  | var v => exact follows_step fun _ => steps_varOpcode v
  | const con => exact follows_step fun _ => steps_const con
  | param p => exact follows_leaf (.param p)
  | aggref aggno _ => exact follows_step fun _ => steps_aggref aggno
  | groupingFunc _ _ | subPlan _ _ _ | alternativeSubPlan _ _ | sqlValueFunction _
  | currentOfExpr | nextValueExpr _ _ => exact follows_leaf _
  | windowFunc wfuncno _ _ => exact follows_step fun _ => steps_windowFunc wfuncno
  | subscriptingRef container refexpr refupperindexpr reflowerindexpr refassgnexpr =>
    obtain ⟨⟨⟨wfExpr, wfUpper⟩, wfLower⟩, wfAssign⟩ := wf
    have follows := follows_subscriptingRef refassgnexpr.isSome (gen_follows refexpr wfExpr)
      (genSubscripts_follows refupperindexpr wfUpper container true refassgnexpr.isSome 0)
      (genSubscripts_follows reflowerindexpr wfLower container false refassgnexpr.isSome 0)
      (genAssignment_follows refassgnexpr wfAssign container)
    exact follows
  | funcExpr _ args | opExpr _ args =>
    exact follows_call (genFuncArgs_follows args wf) fun res cells D clean apart =>
      steps_funcOpcode keeps setup clean apart
  | distinctExpr f args =>
    exact follows_call (genFuncArgs_follows args wf) fun res cells D clean _ => steps_distinct keeps clean
  | nullIfExpr f args =>
    exact follows_call (genFuncArgs_follows args wf) fun res cells D clean _ => steps_nullif keeps clean
  | scalarArrayOpExpr f useOr scalararg arrayarg =>
    exact follows_scalarArrayOp _ (gen_follows scalararg wf.1) (gen_follows arrayarg wf.2)
  | boolExpr boolop args => exact genBoolExpr_follows boolop args wf.1 wf.2
  | fieldSelect _ _ arg | arrayCoerceExpr _ arg _ | convertRowtypeExpr _ _ arg =>
    exact follows_thenEval _ (gen_follows arg wf)
  | fieldStore resulttype ncolumns arg newvals fieldnums =>
    exact follows_fieldStore ncolumns _ _ (gen_follows arg wf.1) (genNewvals_follows newvals wf.2 fieldnums)
  | relabelType arg => exact gen_follows arg wf
  | coerceViaIo outfunc infunc typioparam arg => exact follows_coerceViaIo _ _ _ _ (gen_follows arg wf)
  | caseExpr arg varlena args defresult =>
    have arms := genCaseArms_follows args wf.1.2
    have default := gen_follows defresult wf.2
    cases arg with
    | none => exact follows_casePlain arms default
    | some arg => exact follows_caseTest varlena (gen_follows arg wf.1.1) arms default
  | caseTestExpr => exact follows_caseTestExpr
  | arrayExpr _ _ elements | minMaxExpr _ _ _ elements =>
    exact follows_call (genArray_follows elements wf) fun res cells D clean _ => steps_evalTo _ clean
  | rowExpr rowType attrs args => exact follows_row _ (genRow_follows args wf attrs)
  | rowCompareExpr rctype columns => exact follows_rowCompare rctype (genRowCompare_rows columns wf)
  | coalesceExpr args =>
    obtain _ | ⟨e, rest⟩ := args
    · cases wf.1
    simp only [listWellFormed, Bool.and_eq_true] at wf
    exact follows_coalesce (gen_follows e wf.2.1) (genCoalesce_follows rest wf.2.2)
  | xmlExpr op namedArgs args => exact follows_xml _ (genArray_follows namedArgs wf.1) (genArray_follows args wf.2)
  | nullTest isNull argisrow arg =>
    exact follows_then (gen_follows arg wf) fun res D clean => steps_nullTestOpcode isNull argisrow clean
  | booleanTest booltesttype arg =>
    exact follows_then (gen_follows arg wf) fun res D clean => steps_boolTestOpcode booltesttype clean
  | coerceToDomain typeName varlena arg constraints =>
    exact follows_coerceToDomain (gen_follows arg wf.1) (genConstraints_follows constraints wf.2 typeName varlena)
  | coerceToDomainValue => exact follows_coerceToDomainValue

lemma genFuncArgs_follows : ∀ args : List Node, listWellFormed args = true →
    Fills w llvm (listUsesCase args) (genFuncArgs setup args)
  | [], _ => fills_nil
  | arg :: rest, wf => by
    simp only [listWellFormed, Bool.and_eq_true] at wf
    refine fills_cons (fun _ => rfl) (fun _ _ _ => rfl) ?_ (genFuncArgs_follows rest wf.2)
    intro s c h D entry
    -- a constant is stored while compiling
    cases arg.const? with
    | some con => exact Runs.store c con
    | none => exact (gen_follows arg wf.1).fills entry

lemma genArray_follows : ∀ args : List Node, listWellFormed args = true →
    Fills w llvm (listUsesCase args) (genArray setup args)
  | [], _ => fills_nil
  | e :: rest, wf => by
    simp only [listWellFormed, Bool.and_eq_true] at wf
    exact fills_cons (fun _ => rfl) (fun _ _ _ => rfl) (gen_follows e wf.1).fills (genArray_follows rest wf.2)

lemma genRow_follows : ∀ args : List Node, listWellFormed args = true → ∀ attrs : List RowAttr,
    Fills w llvm (listUsesCase args) fun s cells => genRow setup args s attrs cells
  | [], _, _ => fills_nil
  | _ :: _, _, [] => fills_nil
  | e :: rest, wf, att :: attrs => by
    simp only [listWellFormed, Bool.and_eq_true] at wf
    refine fills_cons (fun _ => rfl) (fun _ _ _ => rfl) ?_ (genRow_follows rest wf.2 attrs)
    intro s c h D entry
    split
    · exact (Runs.step (steps_const nullDatum)).weaken diff_sub
    · exact (gen_follows e wf.1).fills entry

lemma genBoolExpr_follows (boolop : BoolOp) :
    ∀ args : List Node, boolop.asserts args.length = true → listWellFormed args = true →
    Follows w llvm (listUsesCase args) (headReadsFirst args && !listUsesCase args.tail)
      (gen setup (.boolExpr boolop args))
  | [], counted, _ => by cases boolop <;> cases counted
  | [arg], counted, wf => by
    simp only [listWellFormed, Bool.and_true] at wf
    simp only [listUsesCase, headReadsFirst, List.tail_cons, Bool.or_false, Bool.not_false, Bool.and_true]
    cases boolop with
    | not => exact follows_not (gen_follows arg wf)
    | and | or => cases counted
  | arg :: second :: rest, counted, wf => by
    simp only [listWellFormed, Bool.and_eq_true] at wf
    have length : rest.length + 2 = 1 + (second :: rest).length := by rw [List.length_cons]; omega
    have joins (step : AndOr) (isStep : ∀ off nargs res anynull,
        boolOpcode boolop off nargs res anynull = .boolStep step (stepPos off nargs) res anynull) :
        Joins w llvm (listUsesCase (second :: rest)) fun s res anynull =>
          genBoolArgs setup (second :: rest) s boolop (rest.length + 2) res anynull 1 :=
      genBoolArgs_follows boolop step isStep (second :: rest) (Bool.and_eq_true_iff.mpr wf.2) nofun 1 _
        Nat.one_pos length
    cases boolop with
    | not => cases counted
    | and =>
      have follows := follows_junction .and (gen_follows arg wf.1) (joins .and fun _ _ _ _ => rfl)
      exact follows
    | or =>
      have follows := follows_junction .or (gen_follows arg wf.1) (joins .or fun _ _ _ _ => rfl)
      exact follows

lemma genBoolArgs_follows (boolop : BoolOp) (step : AndOr) (isStep : ∀ off nargs res anynull,
      boolOpcode boolop off nargs res anynull = .boolStep step (stepPos off nargs) res anynull) :
    ∀ args : List Node, listWellFormed args = true → args ≠ [] →
    ∀ off nargs : Nat, 0 < off → nargs = off + args.length →
    Joins w llvm (listUsesCase args) fun s res anynull => genBoolArgs setup args s boolop nargs res anynull off
  | [], _, notEmpty, _, _, _, _ => absurd rfl notEmpty
  | [arg], wf, _, off, nargs, positive, counted => by
    simp only [listWellFormed, Bool.and_true] at wf
    have last : stepPos off nargs = .last := by
      rw [stepPos, if_neg (Nat.ne_of_gt positive), if_pos (by simp [counted])]
    simp only [genBoolArgs, isStep, last, listUsesCase, Bool.or_false]
    exact joins_last (gen_follows arg wf)
  | arg :: next :: rest, wf, _, off, nargs, positive, counted => by
    simp only [listWellFormed, Bool.and_eq_true] at wf
    have middle : stepPos off nargs = .middle := by
      simp only [List.length_cons] at counted
      rw [stepPos, if_neg (Nat.ne_of_gt positive), if_neg (by omega)]
    have others := genBoolArgs_follows boolop step isStep (next :: rest)
      (Bool.and_eq_true_iff.mpr wf.2) nofun (off + 1) nargs (Nat.succ_pos off) (by simp only [List.length_cons] at counted ⊢; omega)
    unfold genBoolArgs
    simp only [isStep, middle]
    exact joins_cons (gen_follows arg wf.1) others

lemma genCoalesce_follows : ∀ args : List Node, listWellFormed args = true →
    Tries w llvm (listUsesCase args) (listReadsFirst args) (genCoalesce setup args)
  | [], _ => tries_nil
  | e :: rest, wf => by
    simp only [listWellFormed, Bool.and_eq_true] at wf
    exact tries_cons (gen_follows e wf.1) (genCoalesce_follows rest wf.2)

lemma genCaseArms_follows : ∀ args : List CaseWhen, armsWellFormed args = true →
    Picks w llvm (armsUseCase args) (armsReadFirst args) fun s caseval res => genCaseArms setup args s caseval res
  | [], _ => picks_nil
  | .mk expr result :: rest, wf => by
    simp only [armsWellFormed, Bool.and_eq_true] at wf
    exact picks_cons (gen_follows expr wf.1.1) (gen_follows result wf.1.2) (genCaseArms_follows rest wf.2)

lemma genRowCompare_rows : ∀ columns : List RowColumn, columnsWellFormed columns = true →
    ∀ {s res h D}, Entry (columnsUseCase columns) (!columnsUseCase columns.tail) s res h D →
    Rows w llvm ((genRowCompare setup columns s res).seq
      (if columns.length = 0 then .step (.const res { value := 0, isnull := false }) else .nop)) h (Agree D) D res
  | [], _, _, res, h, D, _ => rows_const _ D res h
  | .mk oper left right :: rest, wf, _, _, _, _, entry => by
    simp only [columnsWellFormed, Bool.and_eq_true] at wf
    exact Rows.nop (entry.rows_column oper.proc keeps (gen_follows left wf.1.1)
      (gen_follows right wf.1.2) (genRowCompare_follows rest wf.2))

lemma genRowCompare_follows : ∀ columns : List RowColumn, columnsWellFormed columns = true →
    Ranks w llvm (columnsUseCase columns) fun s res => genRowCompare setup columns s res
  | [], _ => ranks_nil
  | .mk oper left right :: rest, wf => by
    simp only [columnsWellFormed, Bool.and_eq_true] at wf
    exact ranks_cons oper.proc keeps (gen_follows left wf.1.1) (gen_follows right wf.1.2)
      (genRowCompare_follows rest wf.2)

lemma genSubscripts_follows : ∀ subscripts : List (Option Node), subscriptsWellFormed subscripts = true →
    ∀ (container : Oid) (isupper isAssignment : Bool) (i : Nat),
    Indexes w llvm (subscriptsUseCase subscripts) fun s res sub =>
      genSubscripts setup subscripts s container res sub isupper isAssignment i
  | [], _, _, _, _, _ => indexes_nil
  | none :: rest, wf, container, isupper, isAssignment, i =>
    genSubscripts_follows rest wf container isupper isAssignment (i + 1)
  | some e :: rest, wf, container, isupper, isAssignment, i => by
    simp only [subscriptsWellFormed, Bool.and_eq_true] at wf
    exact indexes_cons _ isAssignment (gen_follows e wf.1)
      (genSubscripts_follows rest wf.2 container isupper isAssignment (i + 1))

lemma genAssignment_follows : ∀ refassgnexpr : Option Node, optionWellFormed refassgnexpr = true → ∀ container : Oid,
    Assigns w llvm fun s res prev replace => genAssignment setup refassgnexpr s container res prev replace
  | none, _, _ => assigns_fetch _
  | some e, wf, _ => assigns_value (isAssignmentIndirectionExpr e) _ _ (gen_follows e wf)

lemma genNewvals_follows : ∀ newvals : List Node, newvalsWellFormed newvals = true → ∀ fieldnums : List Int,
    Renews w llvm fun s base ncolumns => genNewvals setup newvals s fieldnums base ncolumns
  | [], _, _ => renews_nil
  | e :: rest, wf, [] => renews_nil
  | e :: rest, wf, fieldnum :: fieldnums => by
    simp only [newvalsWellFormed, Bool.and_eq_true, Bool.or_eq_true, Bool.not_eq_true'] at wf
    obtain ⟨⟨wfExpr, reads⟩, wfRest⟩ := wf
    refine renews_cons fieldnum (gen_follows e wfExpr) (fun used => ?_) (genNewvals_follows rest wfRest fieldnums)
    exact reads.resolve_left (by simp [used])

lemma genConstraints_follows : ∀ constraints : List DomainConstraint, constraintsWellFormed constraints = true →
    ∀ (typeName : String) (varlena : Bool),
    Constrains w llvm (constraintsUseCase constraints) fun s res check domainval =>
      genConstraints setup constraints s typeName varlena res check domainval
  | [], _, _, _ => constrains_nil
  | .notnull _ :: rest, wf, typeName, varlena =>
    constrains_notnull typeName (genConstraints_follows rest wf typeName varlena)
  | .check name expr :: rest, wf, typeName, varlena => by
    simp only [constraintsWellFormed, Bool.and_eq_true] at wf
    exact constrains_check typeName name varlena (gen_follows expr wf.1)
      (genConstraints_follows rest wf.2 typeName varlena)

end

end Induction

end Hex.Compiler
