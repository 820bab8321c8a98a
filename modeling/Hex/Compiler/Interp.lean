/-
# Compiler.Interp — the interpreter

`ExecInterpExpr` (execExprInterp.c): one equation for each opcode, and the loop
that dispatches them until `EEOP_DONE`. `Flow.jump 0` is `EEO_JUMP` to the step's
`jumpdone` (or to its only target), `Flow.jump 1` to its `jumpnull`.
-/
import Hex.Compiler.Step

namespace Hex.Compiler

open Theory.BlockCode

/-- `slot_getsomeattrs`: the columns before `attnum` become valid. -/
def slotGetsomeattrs (w : World) (slot : SlotName) (attnum : Nat) (m : Machine) : Flow Machine Raised :=
  if (m.slots slot).nvalid < attnum then
    m.call w (.getSomeAttrs slot attnum) fun ds m =>
      .next (m.setSlot slot
        { nvalid := attnum
          values := fun i => ds.getD i ((m.slots slot).values i) })
  else .next m

/-- `MakeExpandedObjectReadOnlyInternal`. -/
def makeReadOnly (w : World) (d : Datum) (m : Machine) (k : Datum → Machine → Flow Machine Raised) :
    Flow Machine Raised :=
  m.call w (.makeReadOnly d) fun ds m => k (returned ds).value m

/-- `fcinfo->isnull = false; d = fn_addr(fcinfo)`. -/
def functionCallInvoke (w : World) (f : FuncCall) (m : Machine)
    (k : NullableDatum → Machine → Flow Machine Raised) : Flow Machine Raised :=
  m.call w (.function f.func (m.args f.args)) fun ds m => k (returned ds) m

def anyArgNull (m : Machine) (args : List Cell) : Bool := args.any fun c => (m.mem c).isnull

/-- `EEOP_FUNCEXPR`. -/
def execFuncExpr (w : World) (res : Cell) (f : FuncCall) (m : Machine) : Flow Machine Raised :=
  functionCallInvoke w f m fun d m => .next (m.set res d)

/-- `EEOP_FUNCEXPR_STRICT`. -/
def execFuncExprStrict (w : World) (res : Cell) (f : FuncCall) (m : Machine) : Flow Machine Raised :=
  if anyArgNull m f.args then .next (m.setNull res true) else execFuncExpr w res f m

/-- A value that ends the evaluation of an AND or OR. -/
def AndOr.decides (boolop : AndOr) (d : Datum) : Bool :=
  match boolop with
  | .and => !datumGetBool d
  | .or => datumGetBool d

/-- `EEOP_BOOL_AND_STEP*` and `EEOP_BOOL_OR_STEP*`. -/
def execBoolStep (boolop : AndOr) (pos : StepPos) (res anynull : Cell) (m : Machine) :
    Flow Machine Raised :=
  let m := if pos = .first then m.set anynull { value := 0, isnull := false } else m
  match pos with
  | .last =>
    if (m.mem res).isnull then .next m
    else if boolop.decides (m.mem res).value then .next m
    else if (m.mem anynull).isnull then .next (m.set res { value := 0, isnull := true })
    else .next m
  | _ =>
    if (m.mem res).isnull then .next (m.setNull anynull true)
    else if boolop.decides (m.mem res).value then .jump 0 m
    else .next m

/-- `EEOP_BOOLTEST_*`. -/
def execBoolTest (res : Cell) (test : BoolTest) (m : Machine) : Machine :=
  if (m.mem res).isnull then
    m.set res
      { value := boolGetDatum (match test with
          | .isTrue | .isFalse => false
          | .isNotTrue | .isNotFalse => true)
        isnull := false }
  else
    match test with
    | .isTrue | .isNotFalse => m
    | .isFalse | .isNotTrue =>
      m.setValue res (boolGetDatum (!datumGetBool (m.mem res).value))

/-- The second half of `EEOP_IOCOERCE`: call the input function, unless it is strict and the
string is NULL. -/
def execInputFunction (w : World) (res : Cell) (inp : FuncCall) (str : Datum) (m : Machine) :
    Flow Machine Raised :=
  if !inp.func.fnStrict || str != 0 then
    let m := m.setFirst inp.args { value := str, isnull := (m.mem res).isnull }
    functionCallInvoke w inp m fun d m => .next (m.setValue res d.value)
  else .next m

/-- `EEOP_IOCOERCE`. -/
def execIOCoerce (w : World) (res : Cell) (out inp : FuncCall) (m : Machine) : Flow Machine Raised :=
  if (m.mem res).isnull then execInputFunction w res inp 0 m
  else
    let m := m.setFirst out.args { value := (m.mem res).value, isnull := false }
    functionCallInvoke w out m fun d m => execInputFunction w res inp d.value m

/-- `EEOP_DISTINCT` and `EEOP_NOT_DISTINCT` work on two arguments. -/
def execDistinct (w : World) (negate : Bool) (res : Cell) (f : FuncCall) (m : Machine) :
    Flow Machine Raised :=
  match f.args with
  | [arg0, arg1] =>
    if (m.mem arg0).isnull && (m.mem arg1).isnull then
      .next (m.set res { value := boolGetDatum (!negate), isnull := false })
    else if (m.mem arg0).isnull || (m.mem arg1).isnull then
      .next (m.set res { value := boolGetDatum negate, isnull := false })
    else
      functionCallInvoke w f m fun d m =>
        .next (m.set res
          { value := if negate then boolGetDatum (!datumGetBool d.value) else d.value
            isnull := d.isnull })
  | _ => .fail { message := "malformed arguments", trace := m.trace }

/-- `EEOP_NULLIF`. -/
def execNullif (w : World) (res : Cell) (f : FuncCall) (m : Machine) : Flow Machine Raised :=
  match f.args with
  | [arg0, arg1] =>
    if !(m.mem arg0).isnull && !(m.mem arg1).isnull then
      functionCallInvoke w f m fun d m =>
        if !d.isnull && datumGetBool d.value then
          .next (m.set res { value := 0, isnull := true })
        else .next (m.set res (m.mem arg0))
    else .next (m.set res (m.mem arg0))
  | _ => .fail { message := "malformed arguments", trace := m.trace }

/-- `EEOP_ROWCOMPARE_STEP`. -/
def execRowCompareStep (w : World) (res : Cell) (f : FuncCall) (m : Machine) : Flow Machine Raised :=
  if f.func.fnStrict && anyArgNull m f.args then .jump 1 (m.setNull res true)
  else
    functionCallInvoke w f m fun d m =>
      let m := m.setValue res d.value
      if d.isnull then .jump 1 (m.setNull res true)
      else
        let m := m.setNull res false
        if datumGetInt32 (m.mem res).value ≠ 0 then .jump 0 m else .next m

def RowCompareType.holds (rctype : RowCompareType) (cmpresult : Int) : Bool :=
  match rctype with
  | .lt => cmpresult < 0
  | .le => cmpresult ≤ 0
  | .ge => cmpresult ≥ 0
  | .gt => cmpresult > 0

/-- `ExecAggInitGroup`: the first input becomes the transition value. -/
def execAggInitGroup (w : World) (t : TransCall) (m : Machine) : Flow Machine Raised :=
  match t.args with
  | _ :: arg1 :: _ =>
    m.call w (.aggInitGroup t.transno (m.mem arg1).sql) fun ds m =>
      .next (m.setGroup t.setoff t.transno
        { transValue := (returned ds).value, transValueIsNull := false, noTransValue := false })
  | _ => .fail { message := "malformed arguments", trace := m.trace }

def invokeTrans (w : World) (t : TransCall) (g : PerGroup) (m : Machine)
    (k : NullableDatum → Machine → Flow Machine Raised) : Flow Machine Raised :=
  let m := m.setFirst t.args { value := g.transValue, isnull := g.transValueIsNull }
  m.call w (.transition t.func t.transno t.setno (m.args t.args)) fun ds m => k (returned ds) m

/-- `ExecAggPlainTransByVal` and `ExecAggPlainTransByRef`: a new value of a
pass-by-reference type is reparented, unless it is the old one. -/
def execAggPlainTrans (w : World) (t : TransCall) (g : PerGroup) (m : Machine) : Flow Machine Raised :=
  invokeTrans w t g m fun newVal m =>
    if !t.byVal && newVal.value != g.transValue then
      m.call w (.aggTransReparent t.transno newVal.sql
          (NullableDatum.sql { value := g.transValue, isnull := g.transValueIsNull })) fun ds m =>
        .next (m.setGroup t.setoff t.transno
          { g with transValue := (returned ds).value, transValueIsNull := newVal.isnull })
    else
      .next (m.setGroup t.setoff t.transno
        { g with transValue := newVal.value, transValueIsNull := newVal.isnull })

/-- `EEOP_AGG_PLAIN_TRANS_*`. -/
def execAggTrans (w : World) (kind : TransKind) (t : TransCall) (m : Machine) : Flow Machine Raised :=
  match m.pergroups t.setoff with
  | none => .fail { message := "null pointer", trace := m.trace }
  | some groups =>
    let g := groups t.transno
    match kind with
    | .initStrict =>
      if g.noTransValue then execAggInitGroup w t m
      else if g.transValueIsNull then .next m
      else execAggPlainTrans w t g m
    | .strict => if g.transValueIsNull then .next m else execAggPlainTrans w t g m
    | .plain => execAggPlainTrans w t g m

def execEval (w : World) (helper : Helper) (reads writes : List Cell) (m : Machine) :
    Flow Machine Raised :=
  m.call w (.helper helper (m.args reads)) fun ds m => .next (m.setAll writes ds)

/-- `ExecEvalSubscriptingRef`: save a subscript, or end the fetch with NULL. -/
def execSubscriptingRef (w : World) (res sub : Cell) (helper : Helper) (isAssignment : Bool)
    (m : Machine) : Flow Machine Raised :=
  m.call w (.helper helper (m.args [sub])) fun _ m =>
    if (m.mem sub).isnull then
      if isAssignment then
        .fail { message := "array subscript in assignment must not be null", trace := m.trace }
      else .jump 0 (m.setNull res true)
    else .next m

/-- `ExecEvalConstraintNotNull`. -/
def execConstraintNotNull (res : Cell) (typeName : String) (m : Machine) : Flow Machine Raised :=
  if (m.mem res).isnull then
    .fail { message := "domain " ++ typeName ++ " does not allow null values", trace := m.trace }
  else .next m

/-- `ExecEvalConstraintCheck`. -/
def execConstraintCheck (check : Cell) (typeName name : String) (m : Machine) : Flow Machine Raised :=
  if !(m.mem check).isnull && !datumGetBool (m.mem check).value then
    .fail
      { message := "value for domain " ++ typeName ++ " violates check constraint \"" ++ name ++ "\""
        trace := m.trace }
  else .next m

/-- One step of `ExecInterpExpr`. -/
def interpStep (w : World) (op : Op) (m : Machine) : Flow Machine Raised :=
  match op with
  | .done => .done m
  | .fetchSome slot lastVar => slotGetsomeattrs w slot lastVar m
  | .var res slot attnum => .next (m.set res ((m.slots slot).values attnum))
  | .assignVar slot attnum resultnum => .next (m.setResult resultnum ((m.slots slot).values attnum))
  | .assignTmp resultnum => .next (m.setResult resultnum (m.mem .result))
  | .assignTmpMakeRO resultnum =>
    if (m.mem .result).isnull then .next (m.setResult resultnum (m.mem .result))
    else
      makeReadOnly w (m.mem .result).value m fun d m =>
        .next (m.setResult resultnum { value := d, isnull := false })
  | .const res value => .next (m.set res value)
  | .funcExpr res f => execFuncExpr w res f m
  | .funcExprStrict res f => execFuncExprStrict w res f m
  -- `ExecEvalFuncExprFusage`, `ExecEvalFuncExprStrictFusage`
  | .funcExprFusage res f => execFuncExpr w res f m
  | .funcExprStrictFusage res f => execFuncExprStrict w res f m
  | .boolStep boolop pos res anynull => execBoolStep boolop pos res anynull m
  | .boolNotStep res => .next (m.setValue res (boolGetDatum (!datumGetBool (m.mem res).value)))
  | .qual res =>
    if (m.mem res).isnull || !datumGetBool (m.mem res).value then
      .jump 0 (m.set res { value := boolGetDatum false, isnull := false })
    else .next m
  | .jump => .jump 0 m
  | .jumpIfNull res => if (m.mem res).isnull then .jump 0 m else .next m
  | .jumpIfNotNull res => if !(m.mem res).isnull then .jump 0 m else .next m
  | .jumpIfNotTrue res =>
    if (m.mem res).isnull || !datumGetBool (m.mem res).value then .jump 0 m else .next m
  | .nullTest res isNull =>
    .next (m.set res
      { value := boolGetDatum (if isNull then (m.mem res).isnull else !(m.mem res).isnull)
        isnull := false })
  | .boolTest res test => .next (execBoolTest res test m)
  | .caseTestVal res src =>
    .next (m.set res (match src with
      | some c => m.mem c
      | none => w.caseValue))
  | .domainTestVal res src =>
    .next (m.set res (match src with
      | some c => m.mem c
      | none => w.domainValue))
  | .makeReadonly res src =>
    if (m.mem src).isnull then .next (m.setNull res true)
    else
      makeReadOnly w (m.mem src).value m fun d m => .next (m.set res { value := d, isnull := false })
  | .ioCoerce res out inp => execIOCoerce w res out inp m
  | .distinct res f => execDistinct w true res f m
  | .notDistinct res f => execDistinct w false res f m
  | .nullif res f => execNullif w res f m
  | .rowCompareStep res f => execRowCompareStep w res f m
  | .rowCompareFinal res rctype =>
    .next (m.set res
      { value := boolGetDatum (rctype.holds (datumGetInt32 (m.mem res).value)), isnull := false })
  | .domainNotnull res typeName => execConstraintNotNull res typeName m
  | .domainCheck check typeName name => execConstraintCheck check typeName name m
  | .aggref res aggno => .next (m.set res (w.aggValue aggno))
  | .windowFunc res wfuncno => .next (m.set res (w.aggValue wfuncno))
  | .eval helper reads writes => execEval w helper reads writes m
  | .sbsrefSubscript res sub helper isAssignment => execSubscriptingRef w res sub helper isAssignment m
  | .aggDeserialize strict res f =>
    if strict && anyArgNull m (f.args.take 1) then .jump 0 m else execFuncExpr w res f m
  | .aggStrictInputCheck args => if anyArgNull m args then .jump 0 m else .next m
  | .aggPlainPergroupNullcheck setoff =>
    match m.pergroups setoff with
    | none => .jump 0 m
    | some _ => .next m
  | .aggPlainTrans kind t => execAggTrans w kind t m

/-- `ExecInterpExpr`. Every step moves ahead, so one unit of fuel for each step is
enough for the programs of the compiler. -/
def execInterpExpr (w : World) (steps : List Step) (m : Machine) : Outcome Machine Raised :=
  run (interpStep w) steps steps.length 0 m

end Hex.Compiler
