/-
# Compiler.ExecInit — ExecInitExprRec

The compiler of `execExpr.c`: `execInitExprRec` appends the steps of a node to an
expression under construction. Jumps whose target is not known yet are pushed with
the label `none`, their positions are collected in `adjust_jumps`, and the labels
are set when the end of the expression is reached, as in the source.

`ereport(ERROR)` leaves the compiler. Here the first error is kept in the state and
the result is of no use; what is compiled after it is not looked at.
-/
import Hex.Compiler.Step

namespace Hex.Compiler

open Theory.BlockCode

/-- An expression under construction, with the memory allocated for it. -/
structure ExprState where
  steps : List Step
  /-- the first error raised -/
  error : Option String
  innermostCaseval : Option Cell
  innermostDomainval : Option Cell
  /-- the number of work cells in use -/
  heap : Nat
  /-- memory that the compiler fills itself -/
  stores : List (Cell × NullableDatum)
  /-- `winstate->numfuncs` of the parent -/
  numfuncs : Nat

/-- The work cells from `first` on. -/
def workCells (first n : Nat) : List Cell := (List.range' first n).map Cell.work

namespace ExprState

def makeNode : ExprState where
  steps := []
  error := none
  innermostCaseval := none
  innermostDomainval := none
  heap := 0
  stores := []
  numfuncs := 0

/-- An expression of its own under the same parent. -/
def separate (st : ExprState) : ExprState :=
  { makeNode with error := st.error, numfuncs := st.numfuncs }

/-- The element expression of an array coercion; its CaseTestExpr has a cell. -/
def element (st : ExprState) : ExprState :=
  { st.separate with innermostCaseval := some (.work 0), heap := 1 }

def resume (st sub : ExprState) : ExprState :=
  { st with error := sub.error, numfuncs := sub.numfuncs }

def exprEvalPushStep (st : ExprState) (op : Op) (labels : List (Option Nat)) : ExprState :=
  { st with steps := st.steps ++ [{ op := op, labels := labels }] }

def push (st : ExprState) (op : Op) : ExprState := st.exprEvalPushStep op []

def pushJump (st : ExprState) (op : Op) : ExprState := st.exprEvalPushStep op [none]

/-- The last step that was pushed: `state->steps_len - 1`. -/
def lastStep (st : ExprState) : Nat := st.steps.length - 1

/-- Set the jump target of steps to the next step. -/
def adjustJumps (st : ExprState) (adjust : List Nat) : ExprState :=
  { st with steps := patch [some st.steps.length] adjust st.steps }

/-- `palloc` of `n` cells; they are `workCells st.heap n`. -/
def palloc (st : ExprState) (n : Nat) : ExprState := { st with heap := st.heap + n }

def store (st : ExprState) (c : Cell) (d : NullableDatum) : ExprState :=
  { st with stores := st.stores ++ [(c, d)] }

/-- `ereport(ERROR)`, `elog(ERROR)`. -/
def ereport (st : ExprState) (message : String) : ExprState :=
  { st with error := st.error.or (some message) }

/-- `if (!ok) ereport(ERROR, message)`. -/
def require (st : ExprState) (ok : Bool) (message : String) : ExprState :=
  if ok then st else st.ereport message

end ExprState

def funcMaxArgs : Nat := 100

/-- `MAXDIM`. -/
def maxDim : Nat := 6

/-- `IsA(arg, Const)`. -/
def Node.const? : Node → Option NullableDatum
  | .const con => some con
  | _ => none

/-- `pg_proc_aclcheck`, and the error when it fails. -/
def aclcheck (f : Func) (st : ExprState) : ExprState :=
  st.require f.executable ("permission denied for function " ++ f.funcname)

/-- The checks of `ExecInitFunc`. -/
def checkFunc (f : Func) (nargs : Nat) (st : ExprState) : ExprState :=
  ((aclcheck f st).require (nargs ≤ funcMaxArgs)
      ("cannot pass more than " ++ toString funcMaxArgs ++ " arguments to a function")).require
    (!f.fnRetset) "set-valued function called in context that cannot accept a set"

/-- The opcode that `ExecInitFunc` chooses. -/
def funcOpcode (setup : Setup) (res : Cell) (f : FuncCall) : Op :=
  let strict := f.func.fnStrict && decide (f.args.length > 0)
  if setup.trackFunctions ≤ f.func.fnStats then
    if strict then .funcExprStrict res f else .funcExpr res f
  else if strict then .funcExprStrictFusage res f
  else .funcExprFusage res f

/-- Which of the steps of AND and OR follows argument `off`. -/
def stepPos (off nargs : Nat) : StepPos :=
  if off = 0 then .first else if off + 1 = nargs then .last else .middle

def boolOpcode (boolop : BoolOp) (off nargs : Nat) (res anynull : Cell) : Op :=
  match boolop with
  | .and => .boolStep .and (stepPos off nargs) res anynull
  | .or => .boolStep .or (stepPos off nargs) res anynull
  | .not => .boolNotStep res

def boolTestOpcode (booltesttype : BoolTestType) (res : Cell) : Op :=
  match booltesttype with
  | .isTrue => .boolTest res .isTrue
  | .isNotTrue => .boolTest res .isNotTrue
  | .isFalse => .boolTest res .isFalse
  | .isNotFalse => .boolTest res .isNotFalse
  | .isUnknown => .nullTest res true
  | .isNotUnknown => .nullTest res false

/-- The step of a Var; `ExecInitWholeRowVar` for a whole row. -/
def varOpcode (v : Var) (res : Cell) : Op :=
  if v.varattno = 0 then .eval (.wholeRowVar v) [] [res]
  else if v.varattno ≤ 0 then .eval (.sysVar v.varno v.varattno) [] [res]
  else .var res v.varno (v.varattno - 1).toNat

def isAssignmentIndirectionExpr : Node → Bool
  | .fieldStore _ _ .caseTestExpr _ _ => true
  | .subscriptingRef _ .caseTestExpr _ _ _ => true
  | .coerceToDomain _ _ arg _ => isAssignmentIndirectionExpr arg
  | _ => false

/-- The element expression of an array coercion does nothing. -/
def trivialSteps : List Step → Bool
  | [{ op := .caseTestVal _ _, labels := _ }] => true
  | _ => false

def elemExpr (trivial : Bool) (elemexpr : Node) : Option Node := if trivial then none else some elemexpr

def nullDatum : NullableDatum := { value := 0, isnull := true }

mutual

def execInitExprRec (setup : Setup) : Node → Cell → ExprState → ExprState
  | .var v, res, st => st.push (varOpcode v res)
  | .const con, res, st => st.push (.const res con)
  | .param p, res, st => st.push (.eval (.param p) [] [res])
  | .aggref aggno _, res, st =>
    (st.require setup.parentIsAgg "Aggref found in non-Agg plan node").push (.aggref res aggno)
  | .groupingFunc cols _, res, st =>
    (st.require setup.parentIsAgg "GroupingFunc found in non-Agg plan node").push
      (.eval (.groupingFunc (if setup.groupingSets then cols else [])) [] [res])
  | .windowFunc wfuncno args aggfilter, res, st =>
    let st := st.require setup.parentIsWindowAgg "WindowFunc found in non-WindowAgg plan node"
    let nfuncs := st.numfuncs + 1
    let st := { st with numfuncs := nfuncs }
    let st := execInitExprList setup args st
    let st := execInitFilter setup aggfilter st
    let st := st.require (nfuncs == st.numfuncs) "window function calls cannot be nested"
    st.push (.windowFunc res wfuncno)
  | .subscriptingRef container refexpr refupperindexpr reflowerindexpr refassgnexpr, res, st =>
    let isAssignment := refassgnexpr.isSome
    let subscript := Cell.work st.heap
    let prev := Cell.work (st.heap + 1)
    let replace := Cell.work (st.heap + 2)
    let st := execInitExprRec setup refexpr res (st.palloc 3)
    let st' := if isAssignment then st else st.pushJump (.jumpIfNull res)
    let adjust := if isAssignment then [] else [st'.lastStep]
    let st := st'.require (refupperindexpr.length ≤ maxDim)
      ("number of array dimensions (" ++ toString refupperindexpr.length ++
        ") exceeds the maximum allowed (" ++ toString maxDim ++ ")")
    let st := st.require (reflowerindexpr.length ≤ maxDim)
      ("number of array dimensions (" ++ toString reflowerindexpr.length ++
        ") exceeds the maximum allowed (" ++ toString maxDim ++ ")")
    let upper := execInitSubscripts setup refupperindexpr container res subscript true isAssignment 0 st adjust
    let lower := execInitSubscripts setup reflowerindexpr container res subscript false isAssignment 0 upper.1 upper.2
    let st := lower.1.require (reflowerindexpr.length == 0 || refupperindexpr.length == reflowerindexpr.length)
      "upper and lower index lists are not same length"
    let st := execInitAssignment setup refassgnexpr container res prev replace st
    st.adjustJumps lower.2
  | .funcExpr f args, res, st =>
    let call : FuncCall := { func := f, args := workCells st.heap args.length }
    let st := execInitFuncArgs setup args call.args ((checkFunc f args.length st).palloc args.length)
    st.push (funcOpcode setup res call)
  | .opExpr f args, res, st =>
    let call : FuncCall := { func := f, args := workCells st.heap args.length }
    let st := execInitFuncArgs setup args call.args ((checkFunc f args.length st).palloc args.length)
    st.push (funcOpcode setup res call)
  | .distinctExpr f args, res, st =>
    let call : FuncCall := { func := f, args := workCells st.heap args.length }
    let st := execInitFuncArgs setup args call.args ((checkFunc f args.length st).palloc args.length)
    st.push (.distinct res call)
  | .nullIfExpr f args, res, st =>
    let call : FuncCall := { func := f, args := workCells st.heap args.length }
    let st := execInitFuncArgs setup args call.args ((checkFunc f args.length st).palloc args.length)
    st.push (.nullif res call)
  | .scalarArrayOpExpr f useOr scalararg arrayarg, res, st =>
    let arg0 := Cell.work st.heap
    let st := execInitExprRec setup scalararg arg0 ((aclcheck f st).palloc 2)
    let st := execInitExprRec setup arrayarg res st
    st.push (.eval (.scalarArrayOp f useOr) [arg0, res] [res])
  | .boolExpr boolop args, res, st =>
    let anynull := Cell.work st.heap
    let st := if boolop = .not then st else st.palloc 1
    let done := execInitBoolArgs setup args boolop args.length res anynull 0 st []
    done.1.adjustJumps done.2
  | .subPlan planId _ _, res, st =>
    (st.require setup.hasParent "SubPlan found with no parent plan").push (.eval (.subPlan planId) [] [res])
  | .alternativeSubPlan planId _, res, st =>
    (st.require setup.hasParent "AlternativeSubPlan found with no parent plan").push
      (.eval (.alternativeSubPlan planId) [] [res])
  | .fieldSelect fieldnum resulttype arg, res, st =>
    (execInitExprRec setup arg res st).push (.eval (.fieldSelect fieldnum resulttype) [res] [res])
  | .fieldStore resulttype ncolumns arg newvals fieldnums, res, st =>
    let base := st.heap
    let values := workCells base ncolumns
    let st := execInitExprRec setup arg res (st.palloc ncolumns)
    let st := st.push (.eval (.fieldStoreDeForm resulttype) [res] values)
    let st := execInitNewvals setup newvals fieldnums base ncolumns st
    st.push (.eval (.fieldStoreForm resulttype) values [res])
  | .relabelType arg, res, st => execInitExprRec setup arg res st
  | .coerceViaIo outfunc infunc typioparam arg, res, st =>
    let st := execInitExprRec setup arg res st
    let out : FuncCall := { func := outfunc, args := workCells st.heap 1 }
    let inp : FuncCall := { func := infunc, args := workCells (st.heap + 1) 3 }
    -- the second and third argument of the input function are constants
    let typmod := Cell.work (st.heap + 3)
    let st := (st.palloc 4).store (.work (st.heap + 2)) { value := BitVec.ofNat 64 typioparam, isnull := false }
    let st := st.store typmod { value := BitVec.ofInt 64 (-1), isnull := false }
    st.push (.ioCoerce res out inp)
  | .arrayCoerceExpr resultelemtype arg elemexpr, res, st =>
    let st := execInitExprRec setup arg res st
    let st := st.require (resultelemtype != 0) "target type is not an array"
    -- the element expression is a program of its own, with memory of its own
    let elemstate := execInitExprRec setup elemexpr .result st.element
    (st.resume elemstate).push
      (.eval (.arrayCoerce resultelemtype (elemExpr (trivialSteps elemstate.steps) elemexpr)) [res] [res])
  | .convertRowtypeExpr inputtype outputtype arg, res, st =>
    (execInitExprRec setup arg res st).push (.eval (.convertRowtype inputtype outputtype) [res] [res])
  | .caseExpr arg varlena args defresult, res, st =>
    let tested := execInitCaseArg setup arg varlena st
    let arms := execInitCaseArms setup args tested.1 res tested.2 []
    let st := execInitExprRec setup defresult res arms.1
    st.adjustJumps arms.2
  | .caseTestExpr, res, st => st.push (.caseTestVal res st.innermostCaseval)
  | .arrayExpr elementType multidims elements, res, st =>
    let elems := workCells st.heap elements.length
    let st := execInitArray setup elements elems (st.palloc elements.length)
    st.push (.eval (.arrayExpr elementType multidims) elems [res])
  | .rowExpr rowType attrs args, res, st =>
    let nelems := max args.length attrs.length
    let elems := workCells st.heap nelems
    let st := elems.foldl (fun st c => st.store c nullDatum) (st.palloc nelems)
    let st := execInitRow setup args attrs elems st
    st.push (.eval (.row rowType) elems [res])
  | .rowCompareExpr rctype columns, res, st =>
    let compared := execInitRowCompare setup columns res st []
    let st := if columns.length = 0 then compared.1.push (.const res { value := 0, isnull := false })
      else compared.1
    let st := st.push (.rowCompareFinal res rctype)
    { st with steps := patch [some (st.steps.length - 1), some st.steps.length] compared.2 st.steps }
  | .coalesceExpr args, res, st =>
    let done := execInitCoalesce setup args res st []
    done.1.adjustJumps done.2
  | .minMaxExpr greatest minmaxtype cmp args, res, st =>
    let elems := workCells st.heap args.length
    let st := st.require (cmp.funcid != 0) ("could not identify a comparison function for type " ++ minmaxtype.name)
    let st := execInitArray setup args elems (st.palloc args.length)
    st.push (.eval (.minMax greatest cmp) elems [res])
  | .sqlValueFunction op, res, st => st.push (.eval (.sqlValueFunction op) [] [res])
  | .xmlExpr op namedArgs args, res, st =>
    let named := workCells st.heap namedArgs.length
    let values := workCells (st.heap + namedArgs.length) args.length
    let st := execInitArray setup namedArgs named (st.palloc (namedArgs.length + args.length))
    let st := execInitArray setup args values st
    st.push (.eval (.xmlExpr op namedArgs.length) (named ++ values) [res])
  | .nullTest isNull argisrow arg, res, st =>
    (execInitExprRec setup arg res st).push
      (if argisrow then .eval (.rowNull isNull) [res] [res] else .nullTest res isNull)
  | .booleanTest booltesttype arg, res, st =>
    (execInitExprRec setup arg res st).push (boolTestOpcode booltesttype res)
  | .coerceToDomain typeName varlena arg constraints, res, st =>
    let st := execInitExprRec setup arg res st
    execInitConstraints setup constraints typeName varlena res none none st
  | .coerceToDomainValue, res, st => st.push (.domainTestVal res st.innermostDomainval)
  | .currentOfExpr, res, st => st.push (.eval .currentOfExpr [] [res])
  | .nextValueExpr seqid seqtypid, res, st => st.push (.eval (.nextValueExpr seqid seqtypid) [] [res])

/-- `ExecInitExprList`, for the errors it may raise. -/
def execInitExprList (setup : Setup) : List Node → ExprState → ExprState
  | [], st => st
  | e :: rest, st =>
    execInitExprList setup rest (st.resume (execInitExprRec setup e .result st.separate))

def execInitFilter (setup : Setup) : Option Node → ExprState → ExprState
  | none, st => st
  | some e, st => st.resume (execInitExprRec setup e .result st.separate)

/-- The arguments of `ExecInitFunc`: constants are stored at once. -/
def execInitFuncArgs (setup : Setup) : List Node → List Cell → ExprState → ExprState
  | arg :: rest, c :: cells, st =>
    let st := match arg.const? with
      | some con => st.store c con
      | none => execInitExprRec setup arg c st
    execInitFuncArgs setup rest cells st
  | _, _, st => st

def execInitArray (setup : Setup) : List Node → List Cell → ExprState → ExprState
  | e :: rest, c :: cells, st => execInitArray setup rest cells (execInitExprRec setup e c st)
  | _, _, st => st

def execInitRow (setup : Setup) : List Node → List RowAttr → List Cell → ExprState → ExprState
  | e :: rest, att :: attrs, c :: cells, st =>
    let st :=
      if att.attisdropped then st.push (.const c nullDatum)
      else
        execInitExprRec setup e c (st.require (att.exprType.oid == att.atttypid.oid)
          ("ROW() column has type " ++ att.exprType.name ++ " instead of type " ++ att.atttypid.name))
    execInitRow setup rest attrs cells st
  | _, _, _, st => st

def execInitBoolArgs (setup : Setup) :
    List Node → BoolOp → Nat → Cell → Cell → Nat → ExprState → List Nat → ExprState × List Nat
  | [], _, _, _, _, _, st, adjust => (st, adjust)
  | arg :: rest, boolop, nargs, res, anynull, off, st, adjust =>
    let st := (execInitExprRec setup arg res st).pushJump (boolOpcode boolop off nargs res anynull)
    execInitBoolArgs setup rest boolop nargs res anynull (off + 1) st (adjust ++ [st.lastStep])

def execInitCoalesce (setup : Setup) : List Node → Cell → ExprState → List Nat → ExprState × List Nat
  | [], _, st, adjust => (st, adjust)
  | e :: rest, res, st, adjust =>
    let st := (execInitExprRec setup e res st).pushJump (.jumpIfNotNull res)
    execInitCoalesce setup rest res st (adjust ++ [st.lastStep])

def execInitCaseArg (setup : Setup) : Option Node → Bool → ExprState → Option Cell × ExprState
  | none, _, st => (none, st)
  | some arg, varlena, st =>
    let caseval := Cell.work st.heap
    let st := execInitExprRec setup arg caseval (st.palloc 1)
    (some caseval, if varlena then st.push (.makeReadonly caseval caseval) else st)

/-- The arms of a CaseExpr, with the positions of the jumps to its end. -/
def execInitCaseArms (setup : Setup) :
    List CaseWhen → Option Cell → Cell → ExprState → List Nat → ExprState × List Nat
  | [], _, _, st, adjust => (st, adjust)
  | .mk expr result :: rest, caseval, res, st, adjust =>
    let saveInnermostCaseval := st.innermostCaseval
    let st := execInitExprRec setup expr res { st with innermostCaseval := caseval }
    let st := { st with innermostCaseval := saveInnermostCaseval }.pushJump (.jumpIfNotTrue res)
    let whenstep := st.lastStep
    let st := (execInitExprRec setup result res st).pushJump .jump
    -- the jump behind the condition goes to the next arm, whose place is known now
    execInitCaseArms setup rest caseval res (st.adjustJumps [whenstep]) (adjust ++ [st.lastStep])

def execInitRowCompare (setup : Setup) :
    List RowColumn → Cell → ExprState → List Nat → ExprState × List Nat
  | [], _, st, adjust => (st, adjust)
  | .mk oper left right :: rest, res, st, adjust =>
    let st := st.require (oper.proc.funcid != 0)
      ("missing support function 1(" ++ toString oper.lefttype ++ "," ++ toString oper.righttype ++
        ") in opfamily " ++ toString oper.opfamily)
    let arg0 := Cell.work st.heap
    let arg1 := Cell.work (st.heap + 1)
    let st := execInitExprRec setup left arg0 (st.palloc 2)
    let st := execInitExprRec setup right arg1 st
    let st := st.exprEvalPushStep (.rowCompareStep res { func := oper.proc, args := [arg0, arg1] }) [none, none]
    execInitRowCompare setup rest res st (adjust ++ [st.lastStep])

/-- The subscripts of one side; a bound that is left out has no steps. -/
def execInitSubscripts (setup : Setup) :
    List (Option Node) → Oid → Cell → Cell → Bool → Bool → Nat → ExprState → List Nat → ExprState × List Nat
  | [], _, _, _, _, _, _, st, adjust => (st, adjust)
  | none :: rest, container, res, subscript, isupper, isAssignment, i, st, adjust =>
    execInitSubscripts setup rest container res subscript isupper isAssignment (i + 1) st adjust
  | some e :: rest, container, res, subscript, isupper, isAssignment, i, st, adjust =>
    let st := (execInitExprRec setup e subscript st).pushJump
      (.sbsrefSubscript res subscript (.subscriptingRef container isupper i) isAssignment)
    execInitSubscripts setup rest container res subscript isupper isAssignment (i + 1) st (adjust ++ [st.lastStep])

/-- The end of `ExecInitSubscriptingRef`: fetch, or evaluate the new value and assign it. -/
def execInitAssignment (setup : Setup) : Option Node → Oid → Cell → Cell → Cell → ExprState → ExprState
  | none, container, res, _, _, st => st.push (.eval (.subscriptingRefFetch container) [res] [res])
  | some refassgnexpr, container, res, prev, replace, st =>
    let st := if isAssignmentIndirectionExpr refassgnexpr then
        st.push (.eval (.subscriptingRefOld container) [res] [prev])
      else st
    let saveInnermostCaseval := st.innermostCaseval
    let st := execInitExprRec setup refassgnexpr replace { st with innermostCaseval := some prev }
    let st := { st with innermostCaseval := saveInnermostCaseval }
    st.push (.eval (.subscriptingRefAssign container) [res, replace] [res])

/-- The new values of a FieldStore, each in place of the old value of its field. -/
def execInitNewvals (setup : Setup) : List Node → List Int → Nat → Nat → ExprState → ExprState
  | e :: rest, fieldnum :: fieldnums, base, ncolumns, st =>
    let st :=
      if fieldnum ≤ 0 ∨ fieldnum > ncolumns then
        st.ereport ("field number " ++ toString fieldnum ++ " is out of range in FieldStore")
      else
        let field := Cell.work (base + (fieldnum - 1).toNat)
        let saveInnermostCaseval := st.innermostCaseval
        let st := execInitExprRec setup e field { st with innermostCaseval := some field }
        { st with innermostCaseval := saveInnermostCaseval }
    execInitNewvals setup rest fieldnums base ncolumns st
  | _, _, _, _, st => st

/-- The constraints of `ExecInitCoerceToDomain`. -/
def execInitConstraints (setup : Setup) :
    List DomainConstraint → String → Bool → Cell → Option Cell → Option Cell → ExprState → ExprState
  | [], _, _, _, _, _, st => st
  | .notnull _ :: rest, typeName, varlena, res, check, domainval, st =>
    execInitConstraints setup rest typeName varlena res check domainval (st.push (.domainNotnull res typeName))
  | .check name expr :: rest, typeName, varlena, res, check, domainval, st =>
    let checkvalue := check.getD (.work st.heap)
    let st := if check.isSome then st else st.palloc 1
    let value := domainval.getD (if varlena then .work st.heap else res)
    let st := if domainval.isSome || !varlena then st
      else (st.palloc 1).push (.makeReadonly value res)
    let saveInnermostDomainval := st.innermostDomainval
    let st := execInitExprRec setup expr checkvalue { st with innermostDomainval := some value }
    let st := { st with innermostDomainval := saveInnermostDomainval }
    execInitConstraints setup rest typeName varlena res (some checkvalue) (some value)
      (st.push (.domainCheck checkvalue typeName name))

end

end Hex.Compiler
