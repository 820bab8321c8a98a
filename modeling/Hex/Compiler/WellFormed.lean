/-
# Compiler.WellFormed — what ExecInitExprRec takes for granted about trees

`Node.wellFormed` holds the assertions of `ExecInitExprRec`: AND and OR have at least
two arguments, NOT has one, COALESCE has at least one.

It also holds what the comment in the case `T_FieldStore` says about new values. The
old value of a field is read through a `CaseTestExpr`, and the cell in which it stands
is the one into which the new value is computed. So the `CaseTestExpr` may only occur
where it is read before the cell is written: `Node.readsFirst`.
-/
import Hex.Compiler.ExecInit

namespace Hex.Compiler

mutual

/-- A `CaseTestExpr` occurs in the tree, except under a node that sets a test value of
its own. -/
def Node.usesCase : Node → Bool
  | .caseTestExpr => true
  | .subscriptingRef _ refexpr refupperindexpr reflowerindexpr _ =>
    refexpr.usesCase || subscriptsUseCase refupperindexpr || subscriptsUseCase reflowerindexpr
  | .funcExpr _ args => listUsesCase args
  | .opExpr _ args => listUsesCase args
  | .distinctExpr _ args => listUsesCase args
  | .nullIfExpr _ args => listUsesCase args
  | .scalarArrayOpExpr _ _ scalararg arrayarg => scalararg.usesCase || arrayarg.usesCase
  | .boolExpr _ args => listUsesCase args
  | .fieldSelect _ _ arg => arg.usesCase
  | .fieldStore _ _ arg _ _ => arg.usesCase
  | .relabelType arg => arg.usesCase
  | .coerceViaIo _ _ _ arg => arg.usesCase
  | .arrayCoerceExpr _ arg _ => arg.usesCase
  | .convertRowtypeExpr _ _ arg => arg.usesCase
  | .caseExpr arg _ args defresult => caseArgUsesCase arg || armsUseCase args || defresult.usesCase
  | .arrayExpr _ _ elements => listUsesCase elements
  | .rowExpr _ _ args => listUsesCase args
  | .rowCompareExpr _ columns => columnsUseCase columns
  | .coalesceExpr args => listUsesCase args
  | .minMaxExpr _ _ _ args => listUsesCase args
  | .xmlExpr _ namedArgs args => listUsesCase namedArgs || listUsesCase args
  | .nullTest _ _ arg => arg.usesCase
  | .booleanTest _ arg => arg.usesCase
  | .coerceToDomain _ _ arg constraints => arg.usesCase || constraintsUseCase constraints
  | _ => false

def listUsesCase : List Node → Bool
  | [] => false
  | e :: rest => e.usesCase || listUsesCase rest

def subscriptsUseCase : List (Option Node) → Bool
  | [] => false
  | none :: rest => subscriptsUseCase rest
  | some e :: rest => e.usesCase || subscriptsUseCase rest

def caseArgUsesCase : Option Node → Bool
  | none => false
  | some arg => arg.usesCase

/-- The results of arms; the conditions have the test value of the CASE. -/
def armsUseCase : List CaseWhen → Bool
  | [] => false
  | .mk _ result :: rest => result.usesCase || armsUseCase rest

def columnsUseCase : List RowColumn → Bool
  | [] => false
  | .mk _ left right :: rest => left.usesCase || right.usesCase || columnsUseCase rest

def constraintsUseCase : List DomainConstraint → Bool
  | [] => false
  | .notnull _ :: rest => constraintsUseCase rest
  | .check _ expr :: rest => expr.usesCase || constraintsUseCase rest

end

mutual

/-- Where the test value stands in the result cell, no `CaseTestExpr` is read after a
step of an AND, OR or row comparison has written the cell. -/
def Node.readsFirst : Node → Bool
  | .subscriptingRef _ refexpr _ _ _ => refexpr.readsFirst
  | .scalarArrayOpExpr _ _ _ arrayarg => arrayarg.readsFirst
  | .boolExpr _ args => headReadsFirst args && !listUsesCase args.tail
  | .fieldSelect _ _ arg => arg.readsFirst
  | .fieldStore _ _ arg _ _ => arg.readsFirst
  | .relabelType arg => arg.readsFirst
  | .coerceViaIo _ _ _ arg => arg.readsFirst
  | .arrayCoerceExpr _ arg _ => arg.readsFirst
  | .convertRowtypeExpr _ _ arg => arg.readsFirst
  | .caseExpr _ _ args defresult => armsReadFirst args && defresult.readsFirst
  | .rowCompareExpr _ columns => !columnsUseCase columns.tail
  | .coalesceExpr args => listReadsFirst args
  | .nullTest _ _ arg => arg.readsFirst
  | .booleanTest _ arg => arg.readsFirst
  | .coerceToDomain _ _ arg _ => arg.readsFirst
  | _ => true

def headReadsFirst : List Node → Bool
  | [] => true
  | e :: _ => e.readsFirst

def listReadsFirst : List Node → Bool
  | [] => true
  | e :: rest => e.readsFirst && listReadsFirst rest

def armsReadFirst : List CaseWhen → Bool
  | [] => true
  | .mk _ result :: rest => result.readsFirst && armsReadFirst rest

end

/-- The number of arguments that `ExecInitExprRec` asserts. -/
def BoolOp.asserts (boolop : BoolOp) (nargs : Nat) : Bool :=
  match boolop with
  | .and | .or => decide (2 ≤ nargs)
  | .not => nargs == 1

mutual

def Node.wellFormed : Node → Bool
  | .subscriptingRef _ refexpr refupperindexpr reflowerindexpr refassgnexpr =>
    refexpr.wellFormed && subscriptsWellFormed refupperindexpr && subscriptsWellFormed reflowerindexpr &&
      optionWellFormed refassgnexpr
  | .funcExpr _ args => listWellFormed args
  | .opExpr _ args => listWellFormed args
  | .distinctExpr _ args => listWellFormed args
  | .nullIfExpr _ args => listWellFormed args
  | .scalarArrayOpExpr _ _ scalararg arrayarg => scalararg.wellFormed && arrayarg.wellFormed
  | .boolExpr boolop args => boolop.asserts args.length && listWellFormed args
  | .fieldSelect _ _ arg => arg.wellFormed
  | .fieldStore _ _ arg newvals _ => arg.wellFormed && newvalsWellFormed newvals
  | .relabelType arg => arg.wellFormed
  | .coerceViaIo _ _ _ arg => arg.wellFormed
  | .arrayCoerceExpr _ arg _ => arg.wellFormed
  | .convertRowtypeExpr _ _ arg => arg.wellFormed
  | .caseExpr arg _ args defresult => optionWellFormed arg && armsWellFormed args && defresult.wellFormed
  | .arrayExpr _ _ elements => listWellFormed elements
  | .rowExpr _ _ args => listWellFormed args
  | .rowCompareExpr _ columns => columnsWellFormed columns
  | .coalesceExpr args => !args.isEmpty && listWellFormed args
  | .minMaxExpr _ _ _ args => listWellFormed args
  | .xmlExpr _ namedArgs args => listWellFormed namedArgs && listWellFormed args
  | .nullTest _ _ arg => arg.wellFormed
  | .booleanTest _ arg => arg.wellFormed
  | .coerceToDomain _ _ arg constraints => arg.wellFormed && constraintsWellFormed constraints
  | _ => true

def listWellFormed : List Node → Bool
  | [] => true
  | e :: rest => e.wellFormed && listWellFormed rest

def subscriptsWellFormed : List (Option Node) → Bool
  | [] => true
  | none :: rest => subscriptsWellFormed rest
  | some e :: rest => e.wellFormed && subscriptsWellFormed rest

def optionWellFormed : Option Node → Bool
  | none => true
  | some e => e.wellFormed

/-- A new value is computed into the cell of the old one. -/
def newvalsWellFormed : List Node → Bool
  | [] => true
  | e :: rest => e.wellFormed && (!e.usesCase || e.readsFirst) && newvalsWellFormed rest

def armsWellFormed : List CaseWhen → Bool
  | [] => true
  | .mk expr result :: rest => expr.wellFormed && result.wellFormed && armsWellFormed rest

def columnsWellFormed : List RowColumn → Bool
  | [] => true
  | .mk _ left right :: rest => left.wellFormed && right.wellFormed && columnsWellFormed rest

def constraintsWellFormed : List DomainConstraint → Bool
  | [] => true
  | .notnull _ :: rest => constraintsWellFormed rest
  | .check _ expr :: rest => expr.wellFormed && constraintsWellFormed rest

end

end Hex.Compiler
