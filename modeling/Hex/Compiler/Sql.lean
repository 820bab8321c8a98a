/-
# Compiler.Sql — what scalar expressions mean in SQL

The meaning of expressions is given here without regard to programs: a value is NULL
or a datum, the connectives are the three-valued ones, and expressions are evaluated
from left to right, a part only when its value is needed. Functions are not
interpreted, so an evaluation also says which calls it makes, in which order, and a
call may depend on the calls before it.

`SqlExpr` has the forms of expressions that the planner hands to the executor for
scalar expressions; forms that the executor never sees (an AND of less than two
arguments, a NULLIF of three) cannot be written.
-/
import Hex.Compiler.Interp

namespace Hex.Compiler

/-! ## Three-valued logic -/

def and3 : Option Bool → Option Bool → Option Bool
  | some false, _ => some false
  | _, some false => some false
  | some true, some true => some true
  | _, _ => none

def or3 : Option Bool → Option Bool → Option Bool
  | some true, _ => some true
  | _, some true => some true
  | some false, some false => some false
  | _, _ => none

def not3 : Option Bool → Option Bool := Option.map Bool.not

def AndOr.connect : AndOr → Option Bool → Option Bool → Option Bool
  | .and => and3
  | .or => or3

/-- The value that an AND or OR has as soon as one of its arguments has it. -/
def AndOr.dominant : AndOr → Bool
  | .and => false
  | .or => true

def boolSql (b : Option Bool) : SqlValue := b.map boolGetDatum

/-- The tests IS TRUE, IS FALSE, IS UNKNOWN and their negations. -/
def BoolTestType.test : BoolTestType → Option Bool → Bool
  | .isTrue, b => b == some true
  | .isNotTrue, b => b != some true
  | .isFalse, b => b == some false
  | .isNotFalse, b => b != some false
  | .isUnknown, b => b == none
  | .isNotUnknown, b => b != none

/-! ## Evaluations -/

/-- What an evaluation leads to: a value and the calls made so far, an error, or the
use of a datum other than 0 and 1 as a boolean. -/
inductive Answer (α : Type) where
  | value (a : α) (trace : List Call)
  | raised (e : Raised)
  | notBoolean

def Eval (α : Type) : Type := List Call → Answer α

namespace Eval

def pure {α : Type} (a : α) : Eval α := fun trace => .value a trace

def bind {α β : Type} (x : Eval α) (f : α → Eval β) : Eval β := fun trace =>
  match x trace with
  | .value a trace => f a trace
  | .raised e => .raised e
  | .notBoolean => .notBoolean

instance : Monad Eval where
  pure := Eval.pure
  bind := Eval.bind

def call (w : World) (c : Call) : Eval (List NullableDatum) := fun trace =>
  match w.answer trace c with
  | .error message => .raised { message := message, trace := trace ++ [c] }
  | .ok ds => .value ds (trace ++ [c])

def function (w : World) (f : Func) (args : List SqlValue) : Eval SqlValue :=
  call w (.function f args) >>= fun ds => pure (returned ds).sql

/-- A datum other than 0 and 1 where a boolean is expected. -/
def notBoolean {α : Type} : Eval α := fun _ => .notBoolean

def truth : SqlValue → Eval (Option Bool)
  | none => pure none
  | some d => if d = 0 then pure (some false) else if d = 1 then pure (some true) else notBoolean

lemma bind_assoc {α β γ : Type} (x : Eval α) (f : α → Eval β) (g : β → Eval γ) :
    (x >>= f) >>= g = x >>= fun a => f a >>= g := by
  funext trace
  change Eval.bind (Eval.bind x f) g trace = Eval.bind x (fun a => Eval.bind (f a) g) trace
  simp only [Eval.bind]
  cases x trace <;> rfl

lemma pure_bind {α β : Type} (a : α) (f : α → Eval β) : (Pure.pure a : Eval α) >>= f = f a := rfl

lemma bind_pure {α : Type} (x : Eval α) : x >>= Pure.pure = x := by
  funext trace
  change Eval.bind x Eval.pure trace = x trace
  simp only [Eval.bind]
  cases x trace <;> rfl

lemma function_bind {α : Type} (w : World) (f : Func) (args : List SqlValue) (k : SqlValue → Eval α) :
    function w f args >>= k = call w (.function f args) >>= fun ds => k (returned ds).sql := by
  rw [function, bind_assoc]
  rfl

end Eval

/-- The values that the placeholders of an expression stand for: the test value of the CASE
around it, and the value that a domain constraint checks. -/
structure Env where
  caseval : SqlValue
  domainval : SqlValue

/-! ## Expressions -/

mutual

inductive SqlExpr where
  | const (con : NullableDatum)
  | var (v : Var)
  | func (f : Func) (args : List SqlExpr)
  | op (f : Func) (args : List SqlExpr)
  | relabel (arg : SqlExpr)
  | distinct (f : Func) (left right : SqlExpr)
  | nullIf (f : Func) (left right : SqlExpr)
  | junction (boolop : AndOr) (first second : SqlExpr) (rest : List SqlExpr)
  | not (arg : SqlExpr)
  | case (arg : Option SqlExpr) (varlena : Bool) (arms : List SqlWhen) (default : SqlExpr)
  | caseTest
  | coalesce (first : SqlExpr) (rest : List SqlExpr)
  | nullTest (isNull : Bool) (arg : SqlExpr)
  | booleanTest (booltesttype : BoolTestType) (arg : SqlExpr)
  | rowCompare (rctype : RowCompareType) (columns : List SqlColumn)

/-- WHEN `expr` THEN `result`. -/
inductive SqlWhen where
  | mk (expr result : SqlExpr)

/-- A column of a row comparison. -/
inductive SqlColumn where
  | mk (oper : RowOper) (left right : SqlExpr)

end

def AndOr.toBoolOp : AndOr → BoolOp
  | .and => .and
  | .or => .or

mutual

def SqlExpr.toNode : SqlExpr → Node
  | .const con => .const con
  | .var v => .var v
  | .func f args => .funcExpr f (toNodes args)
  | .op f args => .opExpr f (toNodes args)
  | .relabel arg => .relabelType arg.toNode
  | .distinct f left right => .distinctExpr f [left.toNode, right.toNode]
  | .nullIf f left right => .nullIfExpr f [left.toNode, right.toNode]
  | .junction boolop first second rest =>
    .boolExpr boolop.toBoolOp (first.toNode :: second.toNode :: toNodes rest)
  | .not arg => .boolExpr .not [arg.toNode]
  | .case arg varlena arms default => .caseExpr (toNode? arg) varlena (toWhens arms) default.toNode
  | .caseTest => .caseTestExpr
  | .coalesce first rest => .coalesceExpr (first.toNode :: toNodes rest)
  | .nullTest isNull arg => .nullTest isNull false arg.toNode
  | .booleanTest booltesttype arg => .booleanTest booltesttype arg.toNode
  | .rowCompare rctype columns => .rowCompareExpr rctype (toColumns columns)

def toNodes : List SqlExpr → List Node
  | [] => []
  | e :: rest => e.toNode :: toNodes rest

def toNode? : Option SqlExpr → Option Node
  | none => none
  | some e => some e.toNode

def toWhens : List SqlWhen → List CaseWhen
  | [] => []
  | .mk expr result :: rest => .mk expr.toNode result.toNode :: toWhens rest

def toColumns : List SqlColumn → List RowColumn
  | [] => []
  | .mk oper left right :: rest => .mk oper left.toNode right.toNode :: toColumns rest

end

/-! ## The value of an expression -/

/-- A function applied to values: a strict one is NULL on a NULL argument, and not called. -/
def Func.apply (w : World) (f : Func) (args : List SqlValue) : Eval SqlValue :=
  if f.fnStrict && args.any Option.isNone then pure none else Eval.function w f args

/-- `x IS DISTINCT FROM y`, with the equality function. -/
def isDistinct (w : World) (f : Func) : SqlValue → SqlValue → Eval SqlValue
  | none, none => pure (boolSql (some false))
  | some x, some y => do
    let equal ← Eval.truth (← Eval.function w f [some x, some y])
    pure (boolSql (not3 equal))
  | _, _ => pure (boolSql (some true))

/-- `NULLIF(x, y)`, with the equality function. -/
def nullIf (w : World) (f : Func) : SqlValue → SqlValue → Eval SqlValue
  | some x, some y => do
    let equal ← Eval.truth (← Eval.function w f [some x, some y])
    pure (if equal = some true then none else some x)
  | x, _ => pure x

def readOnly (w : World) : SqlValue → Eval SqlValue
  | none => pure none
  | some d => Eval.call w (.makeReadOnly d) >>= fun ds => pure (some (returned ds).value)

/-- The value of a Var: a column of a slot, a system column, or the whole row. -/
def varValue (w : World) (slots : SlotName → Slot) (v : Var) : Eval SqlValue :=
  if v.varattno = 0 then Eval.call w (.helper (.wholeRowVar v) []) >>= fun ds => pure (returned ds).sql
  else if v.varattno ≤ 0 then
    Eval.call w (.helper (.sysVar v.varno v.varattno) []) >>= fun ds => pure (returned ds).sql
  else pure ((slots v.varno).values (v.varattno - 1).toNat).sql

/-- The comparison of a column, `none` for NULL. -/
def compareColumn (w : World) (f : Func) (left right : SqlValue) : Eval (Option Int) := do
  let result ← f.apply w [left, right]
  pure (result.map datumGetInt32)

variable (w : World) (slots : SlotName → Slot)

mutual

/-- The SQL value of an expression, where `caseval` is the value of the CASE around it. -/
def SqlExpr.value : SqlExpr → SqlValue → Eval SqlValue
  | .const con, _ => pure con.sql
  | .var v, _ => varValue w slots v
  | .func f args, caseval => values args caseval >>= f.apply w
  | .op f args, caseval => values args caseval >>= f.apply w
  | .relabel arg, caseval => arg.value caseval
  | .distinct f left right, caseval => do
    let x ← left.value caseval
    let y ← right.value caseval
    isDistinct w f x y
  | .nullIf f left right, caseval => do
    let x ← left.value caseval
    let y ← right.value caseval
    nullIf w f x y
  | .junction boolop first second rest, caseval => do
    let a ← Eval.truth (← first.value caseval)
    if a = some boolop.dominant then pure (boolSql a)
    else
      let b ← Eval.truth (← second.value caseval)
      if boolop.connect a b = some boolop.dominant then pure (boolSql (boolop.connect a b))
      else junctionValue rest boolop (boolop.connect a b) caseval
  | .not arg, caseval => do
    let b ← Eval.truth (← arg.value caseval)
    pure (boolSql (not3 b))
  | .case arg varlena arms default, caseval => do
    let tested ← testValue arg varlena caseval
    match ← armsValue arms tested caseval with
    | some result => pure result
    | none => default.value caseval
  | .caseTest, caseval => pure caseval
  | .coalesce first rest, caseval => do
    match ← first.value caseval with
    | some d => pure (some d)
    | none => coalesceValue rest caseval
  | .nullTest isNull arg, caseval => do
    let x ← arg.value caseval
    pure (boolSql (some (if isNull then x.isNone else x.isSome)))
  | .booleanTest booltesttype arg, caseval => do
    let b ← Eval.truth (← arg.value caseval)
    pure (boolSql (some (booltesttype.test b)))
  | .rowCompare rctype columns, caseval => do
    let compared ← columnsValue columns caseval
    pure (boolSql (compared.map rctype.holds))

def values : List SqlExpr → SqlValue → Eval (List SqlValue)
  | [], _ => pure []
  | e :: rest, caseval => do
    let x ← e.value caseval
    let xs ← values rest caseval
    pure (x :: xs)

/-- The rest of an AND or OR, which is `acc` so far. -/
def junctionValue : List SqlExpr → AndOr → Option Bool → SqlValue → Eval SqlValue
  | [], _, acc, _ => pure (boolSql acc)
  | e :: rest, boolop, acc, caseval => do
    let b ← Eval.truth (← e.value caseval)
    if boolop.connect acc b = some boolop.dominant then pure (boolSql (boolop.connect acc b))
    else junctionValue rest boolop (boolop.connect acc b) caseval

def coalesceValue : List SqlExpr → SqlValue → Eval SqlValue
  | [], _ => pure none
  | e :: rest, caseval => do
    match ← e.value caseval with
    | some d => pure (some d)
    | none => coalesceValue rest caseval

/-- The value that a CASE tests; without a test expression, the value that the
expression context supplies. -/
def testValue : Option SqlExpr → Bool → SqlValue → Eval SqlValue
  | none, _, _ => pure w.caseValue.sql
  | some arg, varlena, caseval => do
    let x ← arg.value caseval
    if varlena then readOnly w x else pure x

def armsValue : List SqlWhen → SqlValue → SqlValue → Eval (Option SqlValue)
  | [], _, _ => pure none
  | .mk expr result :: rest, tested, caseval => do
    let b ← Eval.truth (← expr.value tested)
    if b = some true then
      let x ← result.value caseval
      pure (some x)
    else armsValue rest tested caseval

/-- The first comparison of columns that is not zero; `none` if one before it is NULL. -/
def columnsValue : List SqlColumn → SqlValue → Eval (Option Int)
  | [], _ => pure (some 0)
  | .mk oper left right :: rest, caseval => do
    let x ← left.value caseval
    let y ← right.value caseval
    match ← compareColumn w oper.proc x y with
    | some 0 => columnsValue rest caseval
    | decided => pure decided

end

end Hex.Compiler
