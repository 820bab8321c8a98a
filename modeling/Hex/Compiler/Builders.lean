/-
# Compiler.Builders — the programs of the expression compiler

The functions of `execExpr.c` that put a whole program together: `ExecInitExpr`,
`ExecInitQual`, `ExecInitCheck`, `ExecBuildProjectionInfoExt`, `ExecBuildAggTrans`,
`ExecBuildGroupingEqual`, and the element program of an array coercion. Each of them starts
with the steps that deform the slots, compiles its expressions with `execInitExprRec`, and
appends `EEOP_DONE`. Where there is nothing to evaluate the source returns a NULL pointer;
here that is `none`.
-/
import Hex.Compiler.ExecInit

namespace Hex.Compiler

open Theory.BlockCode

/-! ## Deforming slots -/

/-- `LastAttnumInfo`: the last column that is read of each slot. -/
structure LastAttnumInfo where
  lastInner : Nat
  lastOuter : Nat
  lastScan : Nat
  deriving DecidableEq, Repr

namespace LastAttnumInfo

def zero : LastAttnumInfo := { lastInner := 0, lastOuter := 0, lastScan := 0 }

/-- A Var is read; system columns have negative numbers. -/
def note (info : LastAttnumInfo) (v : Var) : LastAttnumInfo :=
  match v.varno with
  | .inner => { info with lastInner := max info.lastInner v.varattno.toNat }
  | .outer => { info with lastOuter := max info.lastOuter v.varattno.toNat }
  | .scan => { info with lastScan := max info.lastScan v.varattno.toNat }

end LastAttnumInfo

mutual

/-- `get_last_attnums_walker`. It does not look into aggregates, window functions and
GROUPING, and the constraints of a domain are no part of the tree. -/
def getLastAttnumsWalker : Node → LastAttnumInfo → LastAttnumInfo
  | .var v, info => info.note v
  | .subscriptingRef _ refexpr refupperindexpr reflowerindexpr refassgnexpr, info =>
    walkOption refassgnexpr (getLastAttnumsWalker refexpr
      (walkSubscripts reflowerindexpr (walkSubscripts refupperindexpr info)))
  | .funcExpr _ args, info => walkList args info
  | .opExpr _ args, info => walkList args info
  | .distinctExpr _ args, info => walkList args info
  | .nullIfExpr _ args, info => walkList args info
  | .scalarArrayOpExpr _ _ scalararg arrayarg, info =>
    getLastAttnumsWalker arrayarg (getLastAttnumsWalker scalararg info)
  | .boolExpr _ args, info => walkList args info
  | .subPlan _ testexpr args, info => walkList args (walkOption testexpr info)
  | .alternativeSubPlan _ subplans, info => walkList subplans info
  | .fieldSelect _ _ arg, info => getLastAttnumsWalker arg info
  | .fieldStore _ _ arg newvals _, info => walkList newvals (getLastAttnumsWalker arg info)
  | .relabelType arg, info => getLastAttnumsWalker arg info
  | .coerceViaIo _ _ _ arg, info => getLastAttnumsWalker arg info
  | .arrayCoerceExpr _ arg elemexpr, info => getLastAttnumsWalker elemexpr (getLastAttnumsWalker arg info)
  | .convertRowtypeExpr _ _ arg, info => getLastAttnumsWalker arg info
  | .caseExpr arg _ args defresult, info => getLastAttnumsWalker defresult (walkArms args (walkOption arg info))
  | .arrayExpr _ _ elements, info => walkList elements info
  | .rowExpr _ _ args, info => walkList args info
  | .rowCompareExpr _ columns, info => walkRightArgs columns (walkLeftArgs columns info)
  | .coalesceExpr args, info => walkList args info
  | .minMaxExpr _ _ _ args, info => walkList args info
  | .xmlExpr _ namedArgs args, info => walkList args (walkList namedArgs info)
  | .nullTest _ _ arg, info => getLastAttnumsWalker arg info
  | .booleanTest _ arg, info => getLastAttnumsWalker arg info
  | .coerceToDomain _ _ arg _, info => getLastAttnumsWalker arg info
  | _, info => info

def walkList : List Node → LastAttnumInfo → LastAttnumInfo
  | [], info => info
  | e :: rest, info => walkList rest (getLastAttnumsWalker e info)

def walkOption : Option Node → LastAttnumInfo → LastAttnumInfo
  | none, info => info
  | some e, info => getLastAttnumsWalker e info

def walkSubscripts : List (Option Node) → LastAttnumInfo → LastAttnumInfo
  | [], info => info
  | none :: rest, info => walkSubscripts rest info
  | some e :: rest, info => walkSubscripts rest (getLastAttnumsWalker e info)

def walkArms : List CaseWhen → LastAttnumInfo → LastAttnumInfo
  | [], info => info
  | .mk expr result :: rest, info => walkArms rest (getLastAttnumsWalker result (getLastAttnumsWalker expr info))

def walkLeftArgs : List RowColumn → LastAttnumInfo → LastAttnumInfo
  | [], info => info
  | .mk _ left _ :: rest, info => walkLeftArgs rest (getLastAttnumsWalker left info)

def walkRightArgs : List RowColumn → LastAttnumInfo → LastAttnumInfo
  | [], info => info
  | .mk _ _ right :: rest, info => walkRightArgs rest (getLastAttnumsWalker right info)

end

/-- `ExecComputeSlotInfo` and the push behind it: a slot that is always virtual needs no
deforming. -/
def pushFetch (virtual : Bool) (slot : SlotName) (lastVar : Nat) (st : ExprState) : ExprState :=
  if virtual then st else st.push (.fetchSome slot lastVar)

/-- The deforming step for a slot of which columns are read. -/
def pushSlot (setup : Setup) (slot : SlotName) (lastVar : Nat) (st : ExprState) : ExprState :=
  if lastVar > 0 then pushFetch (setup.alwaysVirtual slot) slot lastVar st else st

def execPushExprSlots (setup : Setup) (info : LastAttnumInfo) (st : ExprState) : ExprState :=
  pushSlot setup .scan info.lastScan (pushSlot setup .outer info.lastOuter (pushSlot setup .inner info.lastInner st))

def execInitExprSlots (setup : Setup) (nodes : List Node) (st : ExprState) : ExprState :=
  execPushExprSlots setup (walkList nodes .zero) st

/-! ## Expressions, quals and checks -/

def execInitExpr (setup : Setup) (node : Node) : ExprState :=
  (execInitExprRec setup node .result (execInitExprSlots setup [node] .makeNode)).push .done

def execInitQualArgs (setup : Setup) : List Node → ExprState → List Nat → ExprState × List Nat
  | [], st, adjust => (st, adjust)
  | e :: rest, st, adjust =>
    let st := (execInitExprRec setup e .result st).pushJump (.qual .result)
    execInitQualArgs setup rest st (adjust ++ [st.lastStep])

def execInitQual (setup : Setup) (qual : List Node) : Option ExprState :=
  match qual with
  | [] => none
  | _ =>
    let done := execInitQualArgs setup qual (execInitExprSlots setup qual .makeNode) []
    some ((done.1.adjustJumps done.2).push .done)

def makeAndsExplicit : List Node → Node
  | [] => .const { value := boolGetDatum true, isnull := false }
  | [e] => e
  | andclauses => .boolExpr .and andclauses

def execInitCheck (setup : Setup) (qual : List Node) : Option ExprState :=
  match qual with
  | [] => none
  | _ => some (execInitExpr setup (makeAndsExplicit qual))

/-- The element program of an array coercion, unless it is trivial. -/
def execInitElement (setup : Setup) (elemexpr : Node) : Option ExprState :=
  let elemstate := execInitExprRec setup elemexpr .result ExprState.makeNode.element
  if trivialSteps elemstate.steps then none else some (elemstate.push .done)

/-! ## Projections -/

structure DescAttr where
  attisdropped : Bool
  atttypid : Oid
  deriving DecidableEq, Repr

structure TargetEntry where
  expr : Node
  resno : Nat
  resjunk : Bool
  /-- `get_typlen(exprType(expr)) == -1` -/
  varlena : Bool

/-- A non-system Var that needs no check against the source slot; without a descriptor there
is nothing to check. -/
def isSafeVar (inputDesc : Option (List DescAttr)) (v : Var) : Bool :=
  decide (v.varattno > 0) && match inputDesc with
    | none => true
    | some attrs =>
      match attrs[(v.varattno - 1).toNat]? with
      | none => false
      | some attr => !attr.attisdropped && v.vartype == attr.atttypid

/-- The Var of a column for which the `EEOP_ASSIGN_*_VAR` opcodes are used. -/
def TargetEntry.safeVar (tle : TargetEntry) (assignJunkEntries : Bool) (inputDesc : Option (List DescAttr)) :
    Option Var :=
  match tle.expr with
  | .var v => if (assignJunkEntries || !tle.resjunk) && isSafeVar inputDesc v then some v else none
  | _ => none

def execInitTargets (setup : Setup) (assignJunkEntries : Bool) (inputDesc : Option (List DescAttr)) :
    List TargetEntry → ExprState → ExprState
  | [], st => st
  | tle :: rest, st =>
    let st := match tle.safeVar assignJunkEntries inputDesc with
      | some v => st.push (.assignVar v.varno (v.varattno - 1).toNat (tle.resno - 1))
      | none =>
        let st := execInitExprRec setup tle.expr .result st
        -- junk is evaluated and discarded
        if !assignJunkEntries && tle.resjunk then st
        else if tle.varlena then st.push (.assignTmpMakeRO (tle.resno - 1))
        else st.push (.assignTmp (tle.resno - 1))
    execInitTargets setup assignJunkEntries inputDesc rest st

/-- `ExecBuildProjectionInfoExt`; `ExecBuildProjectionInfo` calls it with `assignJunkEntries`. -/
def execBuildProjectionInfoExt (setup : Setup) (targetList : List TargetEntry) (assignJunkEntries : Bool)
    (inputDesc : Option (List DescAttr)) : ExprState :=
  (execInitTargets setup assignJunkEntries inputDesc targetList
    (execInitExprSlots setup (targetList.map TargetEntry.expr) .makeNode)).push .done

/-! ## Aggregate transitions -/

/-- `AggStatePerTransData`, with the fields of its `Aggref` that are read. -/
structure PerTrans where
  aggdirectargs : List Node
  args : List Node
  aggfilter : Option Node
  transfn : Func
  /-- `deserialfn`, if `deserialfn_oid` is valid -/
  deserialfn : Option Func
  transtypeByVal : Bool
  initValueIsNull : Bool
  numInputs : Nat
  numTransInputs : Nat
  numSortCols : Nat

/-- What `ExecBuildAggTrans` reads of the `AggState` and the phase. -/
structure AggPhase where
  /-- `DO_AGGSPLIT_COMBINE(aggstate->aggsplit)` -/
  isCombine : Bool
  doSort : Bool
  doHash : Bool
  nullcheck : Bool
  numsets : Nat
  numHashes : Nat
  maxsets : Nat
  /-- `aggstrategy == AGG_HASHED` -/
  hashed : Bool

namespace PerTrans

/-- The arguments of the transition function behind the transition value. -/
def inputs (transno n : Nat) : List Cell := (List.range n).map fun i => .trans transno (i + 1)

def sortCells (transno n : Nat) : List Cell := (List.range n).map (.sort transno)

def kind (p : PerTrans) : TransKind :=
  if p.transfn.fnStrict && p.initValueIsNull then .initStrict else if p.transfn.fnStrict then .strict else .plain

/-- The transition step that `ExecBuildAggTransCall` chooses. -/
def transOpcode (p : PerTrans) (transno setno setoff : Nat) : Op :=
  if p.numSortCols = 0 then
    .aggPlainTrans p.kind
      { func := p.transfn, byVal := p.transtypeByVal, transno := transno, setno := setno, setoff := setoff
        args := .trans transno 0 :: inputs transno p.numTransInputs }
  else if p.numInputs = 1 then .eval (.aggOrderedTransDatum transno setno) [.result] []
  else .eval (.aggOrderedTransTuple transno setno) (sortCells transno p.numInputs) []

def targets (p : PerTrans) (transno : Nat) : List Cell :=
  if p.numSortCols = 0 then inputs transno p.args.length
  else if p.numInputs = 1 then [.result]
  else sortCells transno p.args.length

/-- The inputs that a strict transition function does not take when they are NULL. -/
def strictCells (isCombine : Bool) (p : PerTrans) (transno : Nat) : List Cell :=
  if isCombine || decide (p.numSortCols = 0) then inputs transno p.numTransInputs
  else if p.numInputs = 1 then [.result]
  else sortCells transno p.numTransInputs

end PerTrans

def execBuildAggTransCall (nullcheck : Bool) (p : PerTrans) (transno setno setoff : Nat) (st : ExprState) : ExprState :=
  if nullcheck then
    let st := st.pushJump (.aggPlainPergroupNullcheck setoff)
    let adjustJumpnull := st.lastStep
    (st.push (p.transOpcode transno setno setoff)).adjustJumps [adjustJumpnull]
  else st.push (p.transOpcode transno setno setoff)

/-- The transition steps for `n` grouping sets. -/
def execBuildAggTransCalls (nullcheck : Bool) (p : PerTrans) (transno : Nat) :
    Nat → Nat → Nat → ExprState → ExprState
  | 0, _, _, st => st
  | n + 1, setno, setoff, st =>
    execBuildAggTransCalls nullcheck p transno n (setno + 1) (setoff + 1)
      (execBuildAggTransCall nullcheck p transno setno setoff st)

def execInitAggFilter (setup : Setup) (isCombine : Bool) (p : PerTrans) (st : ExprState) : ExprState × List Nat :=
  match p.aggfilter with
  | some aggfilter =>
    if isCombine then (st, [])
    else
      let st := (execInitExprRec setup aggfilter .result st).pushJump (.jumpIfNotTrue .result)
      (st, [st.lastStep])
  | none => (st, [])

def execInitCombineArg (setup : Setup) (p : PerTrans) (transno : Nat) (source : Node) (st : ExprState)
    (adjust : List Nat) : ExprState × List Nat :=
  match p.deserialfn with
  | none => (execInitExprRec setup source (.trans transno 1) st, adjust)
  | some deserialfn =>
    let st := execInitExprRec setup source (.deserial transno 0) st
    -- the second argument is there for type safety only
    let st := st.store (.deserial transno 1) { value := 0, isnull := false }
    let call : FuncCall := { func := deserialfn, args := [.deserial transno 0, .deserial transno 1] }
    if deserialfn.fnStrict then
      let st := st.pushJump (.aggDeserialize true (.trans transno 1) call)
      (st, adjust ++ [st.lastStep])
    -- a function that is not strict has no jump
    else (st.push (.aggDeserialize false (.trans transno 1) call), adjust)

def execInitAggArgs (setup : Setup) (isCombine : Bool) (p : PerTrans) (transno : Nat) (st : ExprState)
    (adjust : List Nat) : ExprState × List Nat :=
  if isCombine then
    match p.args with
    | source :: _ => execInitCombineArg setup p transno source st adjust
    | [] => (st, adjust)
  else (execInitArray setup p.args (p.targets transno) st, adjust)

def execInitStrictCheck (isCombine : Bool) (p : PerTrans) (transno : Nat) (st : ExprState) (adjust : List Nat) :
    ExprState × List Nat :=
  if p.transfn.fnStrict && decide (p.numTransInputs > 0) then
    let st := st.pushJump (.aggStrictInputCheck (p.strictCells isCombine transno))
    (st, adjust ++ [st.lastStep])
  else (st, adjust)

def execInitTransitions (phase : AggPhase) (p : PerTrans) (transno : Nat) (st : ExprState) : ExprState :=
  let st := if phase.doSort then
      execBuildAggTransCalls phase.nullcheck p transno (max phase.numsets 1) 0 0 st
    else st
  if phase.doHash then
    -- in mixed mode there are transition values before those of the hash tables
    let setoff := if phase.hashed then 0 else phase.maxsets
    execBuildAggTransCalls phase.nullcheck p transno phase.numHashes 0 setoff st
  else st

/-- All steps for one transition value; a filter or NULL inputs jump behind them. -/
def execInitTrans (setup : Setup) (phase : AggPhase) (p : PerTrans) (transno : Nat) (st : ExprState) : ExprState :=
  let filtered := execInitAggFilter setup phase.isCombine p st
  let evaluated := execInitAggArgs setup phase.isCombine p transno filtered.1 filtered.2
  let checked := execInitStrictCheck phase.isCombine p transno evaluated.1 evaluated.2
  (execInitTransitions phase p transno checked.1).adjustJumps checked.2

def execInitTransValues (setup : Setup) (phase : AggPhase) : List PerTrans → Nat → ExprState → ExprState
  | [], _, st => st
  | p :: rest, transno, st =>
    execInitTransValues setup phase rest (transno + 1) (execInitTrans setup phase p transno st)

def walkPertrans : List PerTrans → LastAttnumInfo → LastAttnumInfo
  | [], info => info
  | p :: rest, info =>
    walkPertrans rest (walkOption p.aggfilter (walkList p.args (walkList p.aggdirectargs info)))

def execBuildAggTrans (setup : Setup) (phase : AggPhase) (pertrans : List PerTrans) : ExprState :=
  (execInitTransValues setup phase pertrans 0
    (execPushExprSlots setup (walkPertrans pertrans .zero) .makeNode)).push .done

/-! ## Equality of groups -/

/-- A column that is compared, with its equality function. -/
structure GroupColumn where
  keyColIdx : Nat
  eqfunction : Func
  deriving DecidableEq, Repr

def execInitGroupColumns : List GroupColumn → ExprState → List Nat → ExprState × List Nat
  | [], st, adjust => (st, adjust)
  | col :: rest, st, adjust =>
    let st := aclcheck col.eqfunction st
    let arg0 := Cell.work st.heap
    let arg1 := Cell.work (st.heap + 1)
    let st := (st.palloc 2).push (.var arg0 .inner (col.keyColIdx - 1))
    let st := st.push (.var arg1 .outer (col.keyColIdx - 1))
    let st := st.push (.notDistinct .result { func := col.eqfunction, args := [arg0, arg1] })
    let st := st.pushJump (.qual .result)
    execInitGroupColumns rest st (adjust ++ [st.lastStep])

def execBuildGroupingEqual (lvirtual rvirtual : Bool) (cols : List GroupColumn) : Option ExprState :=
  match cols with
  | [] => none
  | _ =>
    let maxatt := cols.foldl (fun maxatt col => max maxatt col.keyColIdx) 0
    let st := pushFetch rvirtual .outer maxatt (pushFetch lvirtual .inner maxatt .makeNode)
    let done := execInitGroupColumns cols.reverse st []
    some ((done.1.adjustJumps done.2).push .done)

/-! ## Programs -/

/-- What a program is built for. -/
inductive Source where
  | expr (node : Node)
  | qual (conditions : List Node)
  | check (conditions : List Node)
  | element (elemexpr : Node)
  | projection (targetList : List TargetEntry) (assignJunkEntries : Bool) (inputDesc : Option (List DescAttr))
  | aggTrans (phase : AggPhase) (pertrans : List PerTrans)
  | groupingEqual (lvirtual rvirtual : Bool) (cols : List GroupColumn)

def Source.build (setup : Setup) : Source → Option ExprState
  | .expr node => some (execInitExpr setup node)
  | .qual conditions => execInitQual setup conditions
  | .check conditions => execInitCheck setup conditions
  | .element elemexpr => execInitElement setup elemexpr
  | .projection targetList assignJunkEntries inputDesc =>
    some (execBuildProjectionInfoExt setup targetList assignJunkEntries inputDesc)
  | .aggTrans phase pertrans => some (execBuildAggTrans setup phase pertrans)
  | .groupingEqual lvirtual rvirtual cols => execBuildGroupingEqual lvirtual rvirtual cols

end Hex.Compiler
