/-
# Compiler.Step — programs of steps and the state they work on

A program is a list of `ExprEvalStep`s (execExpr.h). A step finds its operands and
stores its result through pointers; here a pointer pair `Datum *`, `bool *` is a
`Cell`. The opcode enumeration is grouped: opcodes that differ by a slot, by their
place in an AND or OR, or by a kind of test are one constructor with a parameter,
and the opcodes that call an out-of-line function `ExecEval...` are `Op.eval` with
the cells that the function reads and writes.

Called functions and out-of-line functions are not interpreted. What a call
returns may depend on all calls made before it, so a function may keep a state.
-/
import Hex.Compiler.Expr
import Hex.Theory.BlockCode

namespace Hex.Compiler

open Theory.BlockCode

/-! ## Steps -/

/-- Where a value and its is-null flag are stored. -/
inductive Cell where
  /-- `state->resvalue`, `state->resnull` -/
  | result
  /-- workspace allocated while the expression is compiled -/
  | work (n : Nat)
  /-- `pertrans[transno].transfn_fcinfo->args[argno]` -/
  | trans (transno argno : Nat)
  /-- `pertrans[transno].deserialfn_fcinfo->args[argno]` -/
  | deserial (transno argno : Nat)
  /-- `pertrans[transno].sortslot`, column `col` -/
  | sort (transno col : Nat)
  deriving DecidableEq, Repr

/-- A function with its `FunctionCallInfo`. -/
structure FuncCall where
  func : Func
  args : List Cell
  deriving DecidableEq, Repr

inductive AndOr where
  | and
  | or
  deriving DecidableEq, Repr

/-- Which argument of an AND or OR a step follows. -/
inductive StepPos where
  | first
  | middle
  | last
  deriving DecidableEq, Repr

/-- The four tests of `EEOP_BOOLTEST_*`. -/
inductive BoolTest where
  | isTrue
  | isNotTrue
  | isFalse
  | isNotFalse
  deriving DecidableEq, Repr

/-- The out-of-line functions, each with the operands fixed when it is compiled. -/
inductive Helper where
  | sysVar (slot : SlotName) (attnum : Int)
  | wholeRowVar (v : Var)
  | param (p : Param)
  | sqlValueFunction (op : Nat)
  | currentOfExpr
  | nextValueExpr (seqid seqtypid : Oid)
  | arrayExpr (elementType : Oid) (multidims : Bool)
  -- `none` when the element expression needs no work
  | arrayCoerce (resultelemtype : Oid) (elemexpr : Option Node)
  | row (rowType : Oid)
  | minMax (greatest : Bool) (cmp : Func)
  | fieldSelect (fieldnum : Int) (resulttype : Oid)
  | fieldStoreDeForm (resulttype : Oid)
  | fieldStoreForm (resulttype : Oid)
  | subscriptingRef (container : Oid) (isupper : Bool) (off : Nat)
  | subscriptingRefOld (container : Oid)
  | subscriptingRefAssign (container : Oid)
  | subscriptingRefFetch (container : Oid)
  | convertRowtype (inputtype outputtype : Oid)
  | scalarArrayOp (f : Func) (useOr : Bool)
  | xmlExpr (op : Nat) (nnamed : Nat)
  | groupingFunc (cols : List Nat)
  | subPlan (planId : Nat)
  | alternativeSubPlan (planId : Nat)
  | rowNull (isNull : Bool)
  | aggOrderedTransDatum (transno setno : Nat)
  | aggOrderedTransTuple (transno setno : Nat)

/-- How a transition step treats NULL: `EEOP_AGG_PLAIN_TRANS[_INIT_STRICT|_STRICT]`. -/
inductive TransKind where
  | initStrict
  | strict
  | plain
  deriving DecidableEq, Repr

structure TransCall where
  func : Func
  byVal : Bool
  transno : Nat
  setno : Nat
  setoff : Nat
  /-- `transfn_fcinfo->args`, the transition value first -/
  args : List Cell
  deriving DecidableEq, Repr

/-- The opcode of a step with its operands, except for jump targets. -/
inductive Op where
  | done
  | fetchSome (slot : SlotName) (lastVar : Nat)
  | var (res : Cell) (slot : SlotName) (attnum : Nat)
  | assignVar (slot : SlotName) (attnum resultnum : Nat)
  | assignTmp (resultnum : Nat)
  | assignTmpMakeRO (resultnum : Nat)
  | const (res : Cell) (value : NullableDatum)
  | funcExpr (res : Cell) (f : FuncCall)
  | funcExprStrict (res : Cell) (f : FuncCall)
  | funcExprFusage (res : Cell) (f : FuncCall)
  | funcExprStrictFusage (res : Cell) (f : FuncCall)
  | boolStep (boolop : AndOr) (pos : StepPos) (res anynull : Cell)
  | boolNotStep (res : Cell)
  | qual (res : Cell)
  | jump
  | jumpIfNull (res : Cell)
  | jumpIfNotNull (res : Cell)
  | jumpIfNotTrue (res : Cell)
  | nullTest (res : Cell) (isNull : Bool)
  | boolTest (res : Cell) (test : BoolTest)
  | caseTestVal (res : Cell) (src : Option Cell)
  | domainTestVal (res : Cell) (src : Option Cell)
  | makeReadonly (res src : Cell)
  | ioCoerce (res : Cell) (out inp : FuncCall)
  | distinct (res : Cell) (f : FuncCall)
  | notDistinct (res : Cell) (f : FuncCall)
  | nullif (res : Cell) (f : FuncCall)
  | rowCompareStep (res : Cell) (f : FuncCall)
  | rowCompareFinal (res : Cell) (rctype : RowCompareType)
  | domainNotnull (res : Cell) (typeName : String)
  | domainCheck (check : Cell) (typeName name : String)
  | aggref (res : Cell) (aggno : Nat)
  | windowFunc (res : Cell) (wfuncno : Nat)
  | eval (helper : Helper) (reads writes : List Cell)
  | sbsrefSubscript (res sub : Cell) (helper : Helper) (isAssignment : Bool)
  | aggDeserialize (strict : Bool) (res : Cell) (f : FuncCall)
  | aggStrictInputCheck (args : List Cell)
  | aggPlainPergroupNullcheck (setoff : Nat)
  | aggPlainTrans (kind : TransKind) (t : TransCall)

/-- A step: its opcode, and its jump targets (`jumpdone` first, then `jumpnull`). -/
abbrev Step := Instr Op (Option Nat)

/-! ## The state -/

/-- A call, with its arguments as SQL values. -/
inductive Call where
  | function (f : Func) (args : List SqlValue)
  | transition (f : Func) (transno setno : Nat) (args : List SqlValue)
  | helper (h : Helper) (args : List SqlValue)
  | makeReadOnly (d : Datum)
  | getSomeAttrs (slot : SlotName) (attnum : Nat)
  | aggInitGroup (transno : Nat) (value : SqlValue)
  | aggTransReparent (transno : Nat) (newValue oldValue : SqlValue)

/-- A slot: the first `nvalid` columns are deformed. -/
structure Slot where
  nvalid : Nat
  values : Nat → NullableDatum

/-- `AggStatePerGroupData`. -/
structure PerGroup where
  transValue : Datum
  transValueIsNull : Bool
  noTransValue : Bool
  deriving DecidableEq, Repr

/-- What is outside of the program: what calls return, and the fields of the
expression context that steps read. -/
structure World where
  answer : List Call → Call → Except String (List NullableDatum)
  caseValue : NullableDatum
  domainValue : NullableDatum
  aggValue : Nat → NullableDatum

structure Machine where
  mem : Cell → NullableDatum
  slots : SlotName → Slot
  /-- the result slot of a projection -/
  resultslot : Nat → NullableDatum
  /-- `aggstate->all_pergroups`; `none` is a NULL pointer -/
  pergroups : Nat → Option (Nat → PerGroup)
  /-- the calls made so far -/
  trace : List Call

structure Raised where
  message : String
  trace : List Call

def returned (ds : List NullableDatum) : NullableDatum := ds.headD { value := 0, isnull := true }

namespace Machine

def set (m : Machine) (c : Cell) (d : NullableDatum) : Machine :=
  { m with mem := Function.update m.mem c d }

def setValue (m : Machine) (c : Cell) (v : Datum) : Machine :=
  m.set c { m.mem c with value := v }

def setNull (m : Machine) (c : Cell) (b : Bool) : Machine :=
  m.set c { m.mem c with isnull := b }

def setAll (m : Machine) : List Cell → List NullableDatum → Machine
  | [], _ => m
  | c :: cs, ds => (m.set c (returned ds)).setAll cs ds.tail

def setFirst (m : Machine) (cells : List Cell) (d : NullableDatum) : Machine :=
  match cells with
  | c :: _ => m.set c d
  | [] => m

def setResult (m : Machine) (resultnum : Nat) (d : NullableDatum) : Machine :=
  { m with resultslot := Function.update m.resultslot resultnum d }

def setSlot (m : Machine) (slot : SlotName) (s : Slot) : Machine :=
  { m with slots := Function.update m.slots slot s }

def setGroup (m : Machine) (setoff transno : Nat) (g : PerGroup) : Machine :=
  { m with
    pergroups := Function.update m.pergroups setoff
      ((m.pergroups setoff).map fun groups => Function.update groups transno g) }

def args (m : Machine) (cells : List Cell) : List SqlValue := cells.map fun c => (m.mem c).sql

/-- Call a function: it may raise an error, otherwise go on with what it returns. -/
def call {α : Type} (w : World) (c : Call) (m : Machine)
    (k : List NullableDatum → Machine → Flow α Raised) : Flow α Raised :=
  match w.answer m.trace c with
  | .error message => .fail { message := message, trace := m.trace ++ [c] }
  | .ok ds => k ds { m with trace := m.trace ++ [c] }

end Machine

end Hex.Compiler
