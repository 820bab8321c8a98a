/-
# Compiler.Expr — expression trees

The planner hands expressions over as trees of `Node`s (primnodes.h); `execExpr.c`
turns them into programs. A tree carries what the compiler looks up in the
catalogs: strictness and cost of a function, the constraints of a domain, whether
a type is a varlena type. Type names, locations and other fields that the compiler
does not read are left out.
-/
import Mathlib.Tactic.Common

namespace Hex.Compiler

abbrev Oid := Nat

/-! ## Datums -/

abbrev Datum := BitVec 64

/-- A datum with its is-null flag; the datum means nothing when the flag is set. -/
structure NullableDatum where
  value : Datum
  isnull : Bool
  deriving DecidableEq, Repr

abbrev SqlValue := Option Datum

def NullableDatum.sql (d : NullableDatum) : SqlValue := if d.isnull then none else some d.value

def boolGetDatum (b : Bool) : Datum := if b then 1 else 0

def datumGetBool (d : Datum) : Bool := d != 0

/-- `(int32) (X)`. -/
def datumGetInt32 (d : Datum) : Int := (d.setWidth 32).toInt

@[simp] lemma NullableDatum.sql_null (v : Datum) : NullableDatum.sql ⟨v, true⟩ = none := rfl
@[simp] lemma NullableDatum.sql_value (v : Datum) : NullableDatum.sql ⟨v, false⟩ = some v := rfl

lemma NullableDatum.sql_eq_none {d : NullableDatum} : d.sql = none ↔ d.isnull = true := by
  cases null : d.isnull <;> simp [sql, null]

lemma NullableDatum.sql_eq_some {d : NullableDatum} {v : Datum} :
    d.sql = some v ↔ d.isnull = false ∧ d.value = v := by
  cases null : d.isnull <;> simp [sql, null]

lemma NullableDatum.isnull_eq (d : NullableDatum) : d.isnull = d.sql.isNone := by
  cases null : d.isnull <;> simp [sql, null]

@[simp] lemma datumGetBool_boolGetDatum (b : Bool) : datumGetBool (boolGetDatum b) = b := by
  cases b <;> rfl

/-! ## Nodes -/

/-- The slot a Var reads: `INNER_VAR`, `OUTER_VAR`, or the default. -/
inductive SlotName where
  | inner
  | outer
  | scan
  deriving DecidableEq, Repr

structure Var where
  varno : SlotName
  varattno : Int
  vartype : Oid
  deriving DecidableEq, Repr

/-- A function as a node names it, with what `fmgr_info` and the permission check
find about it. -/
structure Func where
  funcid : Oid
  funcname : String
  inputcollid : Oid
  executable : Bool
  fnStrict : Bool
  fnRetset : Bool
  fnStats : Nat
  deriving DecidableEq, Repr

inductive ParamKind where
  | exec
  | external
  -- a hook of the parameter list compiles it
  | callback
  deriving DecidableEq, Repr

structure Param where
  paramkind : ParamKind
  paramid : Int
  paramtype : Oid
  deriving DecidableEq, Repr

inductive BoolOp where
  | and
  | or
  | not
  deriving DecidableEq, Repr

inductive RowCompareType where
  | lt
  | le
  | ge
  | gt
  deriving DecidableEq, Repr

inductive BoolTestType where
  | isTrue
  | isNotTrue
  | isFalse
  | isNotFalse
  | isUnknown
  | isNotUnknown
  deriving DecidableEq, Repr

structure TypeRef where
  oid : Oid
  name : String
  deriving DecidableEq, Repr

/-- A column of the row type of a `ROW()`, with the type of the expression for it. -/
structure RowAttr where
  attisdropped : Bool
  atttypid : TypeRef
  exprType : TypeRef
  deriving DecidableEq, Repr

/-- The operator of a column of a row comparison: its support function in the
operator family (`InvalidOid` if there is none). -/
structure RowOper where
  proc : Func
  lefttype : Oid
  righttype : Oid
  opfamily : Oid
  deriving DecidableEq, Repr

mutual

inductive Node where
  | var (v : Var)
  | const (con : NullableDatum)
  | param (p : Param)
  | aggref (aggno : Nat) (args : List Node)
  | groupingFunc (cols : List Nat) (args : List Node)
  | windowFunc (wfuncno : Nat) (args : List Node) (aggfilter : Option Node)
  | subscriptingRef (container : Oid) (refexpr : Node) (refupperindexpr reflowerindexpr :
      List (Option Node)) (refassgnexpr : Option Node)
  | funcExpr (f : Func) (args : List Node)
  | opExpr (f : Func) (args : List Node)
  | distinctExpr (f : Func) (args : List Node)
  | nullIfExpr (f : Func) (args : List Node)
  | scalarArrayOpExpr (f : Func) (useOr : Bool) (scalararg arrayarg : Node)
  | boolExpr (boolop : BoolOp) (args : List Node)
  | subPlan (planId : Nat) (testexpr : Option Node) (args : List Node)
  | alternativeSubPlan (planId : Nat) (subplans : List Node)
  | fieldSelect (fieldnum : Int) (resulttype : Oid) (arg : Node)
  | fieldStore (resulttype : Oid) (ncolumns : Nat) (arg : Node) (newvals : List Node)
      (fieldnums : List Int)
  | relabelType (arg : Node)
  | coerceViaIo (outfunc infunc : Func) (typioparam : Oid) (arg : Node)
  | arrayCoerceExpr (resultelemtype : Oid) (arg elemexpr : Node)
  | convertRowtypeExpr (inputtype outputtype : Oid) (arg : Node)
  | caseExpr (arg : Option Node) (varlena : Bool) (args : List CaseWhen) (defresult : Node)
  | caseTestExpr
  | arrayExpr (elementType : Oid) (multidims : Bool) (elements : List Node)
  | rowExpr (rowType : Oid) (attrs : List RowAttr) (args : List Node)
  | rowCompareExpr (rctype : RowCompareType) (columns : List RowColumn)
  | coalesceExpr (args : List Node)
  | minMaxExpr (greatest : Bool) (minmaxtype : TypeRef) (cmp : Func) (args : List Node)
  | sqlValueFunction (op : Nat)
  | xmlExpr (op : Nat) (namedArgs args : List Node)
  | nullTest (isNull : Bool) (argisrow : Bool) (arg : Node)
  | booleanTest (booltesttype : BoolTestType) (arg : Node)
  | coerceToDomain (typeName : String) (varlena : Bool) (arg : Node)
      (constraints : List DomainConstraint)
  | coerceToDomainValue
  | currentOfExpr
  | nextValueExpr (seqid seqtypid : Oid)

inductive CaseWhen where
  | mk (expr result : Node)

inductive RowColumn where
  | mk (oper : RowOper) (left right : Node)

inductive DomainConstraint where
  | notnull (name : String)
  | check (name : String) (expr : Node)

end

/-- What the compiler knows about the plan node and the session. -/
structure Setup where
  /-- `pgstat_track_functions` -/
  trackFunctions : Nat
  /-- the parent is an `AggState` -/
  parentIsAgg : Bool
  /-- the parent's plan has grouping sets -/
  groupingSets : Bool
  /-- the parent is a `WindowAggState` -/
  parentIsWindowAgg : Bool
  /-- there is a parent -/
  hasParent : Bool
  /-- slots that are known to be virtual need no deforming step -/
  alwaysVirtual : SlotName → Bool

/-- A plan node that is no aggregate, with slots of any kind. -/
def sampleSetup : Setup where
  trackFunctions := 0
  parentIsAgg := false
  groupingSets := false
  parentIsWindowAgg := false
  hasParent := true
  alwaysVirtual _ := false

end Hex.Compiler
