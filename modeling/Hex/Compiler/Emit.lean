/-
# Compiler.Emit — the code that llvm_compile_expr emits

For every step `llvm_compile_expr` (llvmjit_expr.c) emits basic blocks; the block
`b.op.N.start` of a step is where the jumps to it go. `emittedStep` is the meaning
of the blocks of one step, load by load and store by store in the order in which
they are emitted: a branch to `opblocks[opno + 1]` is `Flow.next`, one to
`opblocks[jumpdone]` or `opblocks[jumpnull]` is `Flow.jump`.

After a call `BuildV1Call` marks the argument record with `llvm.lifetime.end`. What
LLVM leaves in the record is open: `Llvm.lifetimeEnd` may change these cells, and
no other memory.
-/
import Hex.Compiler.Interp

namespace Hex.Compiler

open Theory.BlockCode

/-- What `llvm.lifetime.end` does to memory. -/
structure Llvm where
  lifetimeEnd : List Cell → (Cell → NullableDatum) → Cell → NullableDatum
  elsewhere : ∀ cells mem c, c ∉ cells → lifetimeEnd cells mem c = mem c

/-- The argument records keep their contents. -/
def Llvm.Keeps (llvm : Llvm) : Prop := ∀ cells mem, llvm.lifetimeEnd cells mem = mem

def Machine.lifetimeEnd (llvm : Llvm) (cells : List Cell) (m : Machine) : Machine :=
  { m with mem := llvm.lifetimeEnd cells m.mem }

variable (w : World) (llvm : Llvm)

def buildV1Call (f : FuncCall) (m : Machine) (k : NullableDatum → Machine → Flow Machine Raised) :
    Flow Machine Raised :=
  functionCallInvoke w f m fun d m => k d (m.lifetimeEnd llvm f.args)

def storeResult (res : Cell) (d : NullableDatum) (m : Machine) : Machine :=
  (m.setValue res d.value).setNull res d.isnull

/-- The fetch blocks: the columns are deformed unless they are valid already. -/
def emitFetchSome (slot : SlotName) (lastVar : Nat) (m : Machine) : Flow Machine Raised :=
  let v_nvalid := (m.slots slot).nvalid
  if lastVar ≤ v_nvalid then .next m
  else
    m.call w (.getSomeAttrs slot lastVar) fun ds m =>
      .next (m.setSlot slot
        { nvalid := lastVar
          values := fun i => ds.getD i ((m.slots slot).values i) })

/-- `EEOP_ASSIGN_TMP_MAKE_RO`: only a value that is not NULL is stored. -/
def emitAssignTmpMakeRO (resultnum : Nat) (m : Machine) : Flow Machine Raised :=
  let v_value := (m.mem .result).value
  let v_isnull := (m.mem .result).isnull
  let m := m.setResult resultnum { m.resultslot resultnum with isnull := v_isnull }
  if v_isnull = false then
    makeReadOnly w v_value m fun d m =>
      .next (m.setResult resultnum { m.resultslot resultnum with value := d })
  else .next m

def emitCheckArgNulls (m : Machine) : List Cell → Bool
  | [] => false
  | c :: rest => if (m.mem c).isnull = true then true else emitCheckArgNulls m rest

/-- `EEOP_FUNCEXPR`. -/
def emitFuncExpr (res : Cell) (f : FuncCall) (m : Machine) : Flow Machine Raised :=
  buildV1Call w llvm f m fun v_retval m => .next (storeResult res v_retval m)

/-- `EEOP_FUNCEXPR_STRICT`: the result is set to NULL before the arguments are checked. -/
def emitFuncExprStrict (res : Cell) (f : FuncCall) (m : Machine) : Flow Machine Raised :=
  let m := m.setNull res true
  if emitCheckArgNulls m f.args then .next m else emitFuncExpr w llvm res f m

def AndOr.stop : AndOr → Datum
  | .and => 0
  | .or => 1

/-- The steps of AND and OR; the last one is not treated differently. -/
def emitBoolStep (boolop : AndOr) (pos : StepPos) (res anynull : Cell) (m : Machine) :
    Flow Machine Raised :=
  let m := if pos = .first then m.set anynull { value := 0, isnull := false } else m
  let v_boolnull := (m.mem res).isnull
  let v_boolvalue := (m.mem res).value
  let m := (m.setNull res v_boolnull).setValue res v_boolvalue
  let boolcont := fun (m : Machine) =>
    if (m.mem anynull).isnull = false then Flow.next m
    else .next ((m.setNull res true).setValue res 0)
  if v_boolnull = true then boolcont (m.setNull anynull true)
  else if v_boolvalue = boolop.stop then .jump 0 m
  else boolcont m

def emitBoolTest (res : Cell) (test : BoolTest) (m : Machine) : Machine :=
  if (m.mem res).isnull = true then
    let m := m.setNull res false
    match test with
    | .isTrue | .isFalse => m.setValue res 0
    | .isNotTrue | .isNotFalse => m.setValue res 1
  else
    match test with
    | .isTrue | .isNotFalse => m
    | .isFalse | .isNotTrue => m.setValue res (if (m.mem res).value = 0 then 1 else 0)

/-- The blocks of `EEOP_IOCOERCE` from `b_input` on. -/
def emitInputFunction (res : Cell) (inp : FuncCall) (v_resnull : Bool) (v_output : Datum) (m : Machine) :
    Flow Machine Raised :=
  if inp.func.fnStrict = true ∧ v_output = 0 then .next m
  else
    let m := m.setFirst inp.args { value := v_output, isnull := v_resnull }
    functionCallInvoke w inp m fun v_retval m => .next (m.setValue res v_retval.value)

/-- `EEOP_IOCOERCE`. -/
def emitIOCoerce (res : Cell) (out inp : FuncCall) (m : Machine) : Flow Machine Raised :=
  let v_resnull := (m.mem res).isnull
  if v_resnull = true then emitInputFunction w res inp v_resnull 0 m
  else
    let v_resvalue := (m.mem res).value
    let m := m.setFirst out.args { value := v_resvalue, isnull := false }
    functionCallInvoke w out m fun v_output m => emitInputFunction w res inp v_resnull v_output.value m

/-- `EEOP_DISTINCT` and `EEOP_NOT_DISTINCT`. -/
def emitDistinct (negate : Bool) (res : Cell) (f : FuncCall) (m : Machine) : Flow Machine Raised :=
  match f.args with
  | [arg0, arg1] =>
    let v_argisnull0 := (m.mem arg0).isnull
    let v_argisnull1 := (m.mem arg1).isnull
    if v_argisnull0 || v_argisnull1 then
      if v_argisnull0 && v_argisnull1 then
        .next ((m.setNull res false).setValue res (if negate then 0 else 1))
      else .next ((m.setNull res false).setValue res (if negate then 1 else 0))
    else
      buildV1Call w llvm f m fun v_result m =>
        .next ((m.setNull res v_result.isnull).setValue res
          (if negate then if v_result.value = 0 then 1 else 0 else v_result.value))
  | _ => .fail { message := "malformed arguments", trace := m.trace }

/-- `EEOP_NULLIF`: the block for arguments that are not equal loads the first
argument again, after the call. -/
def emitNullif (res : Cell) (f : FuncCall) (m : Machine) : Flow Machine Raised :=
  match f.args with
  | [arg0, arg1] =>
    let v_argnull0 := (m.mem arg0).isnull
    let v_argnull1 := (m.mem arg1).isnull
    let hasnull := fun (m : Machine) =>
      let v_arg0 := (m.mem arg0).value
      Flow.next ((m.setNull res v_argnull0).setValue res v_arg0)
    if v_argnull0 || v_argnull1 then hasnull m
    else
      buildV1Call w llvm f m fun v_retval m =>
        if v_retval.isnull = false ∧ v_retval.value = 1 then
          .next (((m.setNull res true).setValue res 0).setValue res v_retval.value)
        else hasnull m
  | _ => .fail { message := "malformed arguments", trace := m.trace }

/-- `EEOP_ROWCOMPARE_STEP`: the comparison result is tested with all its 64 bits. -/
def emitRowCompareStep (res : Cell) (f : FuncCall) (m : Machine) : Flow Machine Raised :=
  let null := fun (m : Machine) => Flow.jump 1 (m.setNull res true)
  if f.func.fnStrict && emitCheckArgNulls m f.args then null m
  else
    buildV1Call w llvm f m fun v_retval m =>
      let m := m.setValue res v_retval.value
      if v_retval.isnull = false then if v_retval.value = 0 then .next m else .jump 0 m
      else null m

/-- `EEOP_ROWCOMPARE_FINAL`: the predicate on the 32-bit result. -/
def emitRowCompareFinal (res : Cell) (rctype : RowCompareType) (m : Machine) : Machine :=
  let v_cmpresult : BitVec 32 := (m.mem res).value.setWidth 32
  let v_result : Bool := match rctype with
    | .lt => v_cmpresult.slt 0
    | .le => v_cmpresult.sle 0
    | .gt => BitVec.slt 0 v_cmpresult
    | .ge => BitVec.sle 0 v_cmpresult
  (m.setNull res false).setValue res (if v_result then 1 else 0)

def emitAggTrans (kind : TransKind) (t : TransCall) (m : Machine) : Flow Machine Raised :=
  match m.pergroups t.setoff with
  | none => .fail { message := "null pointer", trace := m.trace }
  | some groups =>
    let g := groups t.transno
    if kind = .initStrict ∧ g.noTransValue = true then execAggInitGroup w t m
    else if (kind = .initStrict ∨ kind = .strict) ∧ g.transValueIsNull = true then .next m
    else
      invokeTrans w t g m fun v_retval m =>
        let m := m.lifetimeEnd llvm t.args
        if t.byVal = false ∧ ¬ g.transValue = v_retval.value then
          m.call w (.aggTransReparent t.transno v_retval.sql
              (NullableDatum.sql { value := g.transValue, isnull := g.transValueIsNull })) fun ds m =>
            .next (m.setGroup t.setoff t.transno
              { g with transValue := (returned ds).value, transValueIsNull := v_retval.isnull })
        else
          .next (m.setGroup t.setoff t.transno
            { g with transValue := v_retval.value, transValueIsNull := v_retval.isnull })

def emittedStep (op : Op) (m : Machine) : Flow Machine Raised :=
  match op with
  | .done => .done m
  | .fetchSome slot lastVar => emitFetchSome w slot lastVar m
  | .var res slot attnum => .next (storeResult res ((m.slots slot).values attnum) m)
  | .assignVar slot attnum resultnum => .next (m.setResult resultnum ((m.slots slot).values attnum))
  | .assignTmp resultnum => .next (m.setResult resultnum (m.mem .result))
  | .assignTmpMakeRO resultnum => emitAssignTmpMakeRO w resultnum m
  | .const res value => .next (storeResult res value m)
  | .funcExpr res f => emitFuncExpr w llvm res f m
  | .funcExprStrict res f => emitFuncExprStrict w llvm res f m
  -- calls of `ExecEvalFuncExprFusage` and `ExecEvalFuncExprStrictFusage`
  | .funcExprFusage res f => execFuncExpr w res f m
  | .funcExprStrictFusage res f => execFuncExprStrict w res f m
  | .boolStep boolop pos res anynull => emitBoolStep boolop pos res anynull m
  | .boolNotStep res =>
    let v_boolnull := (m.mem res).isnull
    let v_negbool := if (m.mem res).value = 0 then 1 else 0
    .next ((m.setNull res v_boolnull).setValue res v_negbool)
  | .qual res =>
    if (m.mem res).isnull = true ∨ (m.mem res).value = 0 then
      .jump 0 ((m.setNull res false).setValue res 0)
    else .next m
  | .jump => .jump 0 m
  | .jumpIfNull res => if (m.mem res).isnull = true then .jump 0 m else .next m
  | .jumpIfNotNull res => if (m.mem res).isnull = false then .jump 0 m else .next m
  | .jumpIfNotTrue res =>
    if (m.mem res).isnull = true ∨ (m.mem res).value = 0 then .jump 0 m else .next m
  | .nullTest res isNull =>
    let v_resvalue := if (m.mem res).isnull = true then (if isNull then 1 else 0)
      else (if isNull then 0 else 1)
    .next ((m.setValue res v_resvalue).setNull res false)
  | .boolTest res test => .next (emitBoolTest res test m)
  | .caseTestVal res src =>
    .next (match src with
      | some c => storeResult res (m.mem c) m
      | none => storeResult res w.caseValue m)
  | .domainTestVal res src =>
    .next (match src with
      | some c => storeResult res (m.mem c) m
      | none => storeResult res w.domainValue m)
  | .makeReadonly res src =>
    let v_null := (m.mem src).isnull
    let m := m.setNull res v_null
    if v_null = true then .next m
    else makeReadOnly w (m.mem src).value m fun v_ret m => .next (m.setValue res v_ret)
  | .ioCoerce res out inp => emitIOCoerce w res out inp m
  | .distinct res f => emitDistinct w llvm true res f m
  | .notDistinct res f => emitDistinct w llvm false res f m
  | .nullif res f => emitNullif w llvm res f m
  | .rowCompareStep res f => emitRowCompareStep w llvm res f m
  | .rowCompareFinal res rctype => .next (emitRowCompareFinal res rctype m)
  -- calls of `ExecEvalConstraintNotNull` and `ExecEvalConstraintCheck`
  | .domainNotnull res typeName => execConstraintNotNull res typeName m
  | .domainCheck check typeName name => execConstraintCheck check typeName name m
  | .aggref res aggno => .next (storeResult res (w.aggValue aggno) m)
  | .windowFunc res wfuncno => .next (storeResult res (w.aggValue wfuncno) m)
  | .eval helper reads writes => execEval w helper reads writes m
  | .sbsrefSubscript res sub helper isAssignment => execSubscriptingRef w res sub helper isAssignment m
  | .aggDeserialize strict res f =>
    if strict && emitCheckArgNulls m (f.args.take 1) then .jump 0 m else emitFuncExpr w llvm res f m
  | .aggStrictInputCheck args => if emitCheckArgNulls m args then .jump 0 m else .next m
  | .aggPlainPergroupNullcheck setoff =>
    match m.pergroups setoff with
    | none => .jump 0 m
    | some _ => .next m
  | .aggPlainTrans kind t => emitAggTrans w llvm kind t m

/-- The compiled expression: the code of all steps, entered at the first block. -/
def runCompiledExpr (steps : List Step) (m : Machine) : Outcome Machine Raised :=
  run (emittedStep w llvm) steps steps.length 0 m

end Hex.Compiler
