/-
# Compiler.Emitted — the steps that the compiler emits

What kind of steps a program consists of, without what they compute.

* `Op.jumps`: the number of jump targets that `ExecInterpExpr` reads in a step of an opcode,
  and `Op.column`: the column of a slot that it reads.
* `Node.vars`, `Node.checkVars`: the Vars of a tree, and those of the CHECK expressions of
  the domains in it.
* `Admits`, `Reads`: a predicate of steps that holds for those that have the jump targets that
  they need and read no column, and for those that read a Var.
-/
import Hex.Compiler.Programs
import Hex.Compiler.Interp

namespace Hex.Compiler

open Theory.BlockCode

variable {P : Instr Op Nat → Prop} {v : Var} {inputDesc : Option (List DescAttr)}

/-- The jump targets of a step that `ExecInterpExpr` reads: `jumpdone`, and `jumpnull` of a row
comparison. The last step of an AND or OR does not jump. -/
def Op.jumps : Op → Nat
  | .boolStep _ pos _ _ => if pos = .last then 0 else 1
  | .qual _ => 1
  | .jump => 1
  | .jumpIfNull _ => 1
  | .jumpIfNotNull _ => 1
  | .jumpIfNotTrue _ => 1
  | .rowCompareStep _ _ => 2
  | .sbsrefSubscript _ _ _ _ => 1
  | .aggDeserialize strict _ _ => if strict then 1 else 0
  | .aggStrictInputCheck _ => 1
  | .aggPlainPergroupNullcheck _ => 1
  | _ => 0

def Op.column : Op → Option (SlotName × Nat)
  | .var _ slot attnum => some (slot, attnum)
  | .assignVar slot attnum _ => some (slot, attnum)
  | _ => none

/-! ## Predicates of steps -/

/-- `P` holds for the steps that have the jump targets that they need and read no column. -/
def Admits (P : Instr Op Nat → Prop) : Prop :=
  ∀ op labels, op.jumps ≤ labels.length → op.column = none → P { op := op, labels := labels }

/-- `P` holds for all steps of the code. -/
def Gen.Each {d : Nat} (P : Instr Op Nat → Prop) (g : Gen d) : Prop := ∀ heap, (g.piece heap).code.Each P

lemma Gen.Each.seq {d : Nat} {a b : Gen d} (first : a.Each P) (second : b.Each P) :
    (a.seq b).Each P := fun heap => ⟨first heap, second _⟩

/-! ## Vars -/

mutual

/-- The Vars of a tree. Arguments of aggregates and window functions are evaluated elsewhere,
and the constraints of a domain are no part of the tree. -/
def Node.vars : Node → List Var
  | .var v => [v]
  | .subscriptingRef _ refexpr refupperindexpr reflowerindexpr refassgnexpr =>
    subscriptsVars refupperindexpr ++ subscriptsVars reflowerindexpr ++ refexpr.vars ++ optionVars refassgnexpr
  | .funcExpr _ args => listVars args
  | .opExpr _ args => listVars args
  | .distinctExpr _ args => listVars args
  | .nullIfExpr _ args => listVars args
  | .scalarArrayOpExpr _ _ scalararg arrayarg => scalararg.vars ++ arrayarg.vars
  | .boolExpr _ args => listVars args
  | .subPlan _ testexpr args => optionVars testexpr ++ listVars args
  | .alternativeSubPlan _ subplans => listVars subplans
  | .fieldSelect _ _ arg => arg.vars
  | .fieldStore _ _ arg newvals _ => arg.vars ++ listVars newvals
  | .relabelType arg => arg.vars
  | .coerceViaIo _ _ _ arg => arg.vars
  | .arrayCoerceExpr _ arg elemexpr => arg.vars ++ elemexpr.vars
  | .convertRowtypeExpr _ _ arg => arg.vars
  | .caseExpr arg _ args defresult => optionVars arg ++ armsVars args ++ defresult.vars
  | .arrayExpr _ _ elements => listVars elements
  | .rowExpr _ _ args => listVars args
  | .rowCompareExpr _ columns => leftVars columns ++ rightVars columns
  | .coalesceExpr args => listVars args
  | .minMaxExpr _ _ _ args => listVars args
  | .xmlExpr _ namedArgs args => listVars namedArgs ++ listVars args
  | .nullTest _ _ arg => arg.vars
  | .booleanTest _ arg => arg.vars
  | .coerceToDomain _ _ arg _ => arg.vars
  | _ => []

def listVars : List Node → List Var
  | [] => []
  | e :: rest => e.vars ++ listVars rest

def optionVars : Option Node → List Var
  | none => []
  | some e => e.vars

def subscriptsVars : List (Option Node) → List Var
  | [] => []
  | none :: rest => subscriptsVars rest
  | some e :: rest => e.vars ++ subscriptsVars rest

def armsVars : List CaseWhen → List Var
  | [] => []
  | .mk expr result :: rest => expr.vars ++ result.vars ++ armsVars rest

def leftVars : List RowColumn → List Var
  | [] => []
  | .mk _ left _ :: rest => left.vars ++ leftVars rest

def rightVars : List RowColumn → List Var
  | [] => []
  | .mk _ _ right :: rest => right.vars ++ rightVars rest

end

mutual

/-- The Vars in the CHECK expressions of the domains of a tree. -/
def Node.checkVars : Node → List Var
  | .subscriptingRef _ refexpr refupperindexpr reflowerindexpr refassgnexpr =>
    subscriptsCheckVars refupperindexpr ++ subscriptsCheckVars reflowerindexpr ++ refexpr.checkVars ++
      optionCheckVars refassgnexpr
  | .funcExpr _ args => listCheckVars args
  | .opExpr _ args => listCheckVars args
  | .distinctExpr _ args => listCheckVars args
  | .nullIfExpr _ args => listCheckVars args
  | .scalarArrayOpExpr _ _ scalararg arrayarg => scalararg.checkVars ++ arrayarg.checkVars
  | .boolExpr _ args => listCheckVars args
  | .fieldSelect _ _ arg => arg.checkVars
  | .fieldStore _ _ arg newvals _ => arg.checkVars ++ listCheckVars newvals
  | .relabelType arg => arg.checkVars
  | .coerceViaIo _ _ _ arg => arg.checkVars
  | .arrayCoerceExpr _ arg _ => arg.checkVars
  | .convertRowtypeExpr _ _ arg => arg.checkVars
  | .caseExpr arg _ args defresult => optionCheckVars arg ++ armsCheckVars args ++ defresult.checkVars
  | .arrayExpr _ _ elements => listCheckVars elements
  | .rowExpr _ _ args => listCheckVars args
  | .rowCompareExpr _ columns => columnsCheckVars columns
  | .coalesceExpr args => listCheckVars args
  | .minMaxExpr _ _ _ args => listCheckVars args
  | .xmlExpr _ namedArgs args => listCheckVars namedArgs ++ listCheckVars args
  | .nullTest _ _ arg => arg.checkVars
  | .booleanTest _ arg => arg.checkVars
  | .coerceToDomain _ _ arg constraints => arg.checkVars ++ constraintsVars constraints
  | _ => []

def listCheckVars : List Node → List Var
  | [] => []
  | e :: rest => e.checkVars ++ listCheckVars rest

def optionCheckVars : Option Node → List Var
  | none => []
  | some e => e.checkVars

def subscriptsCheckVars : List (Option Node) → List Var
  | [] => []
  | none :: rest => subscriptsCheckVars rest
  | some e :: rest => e.checkVars ++ subscriptsCheckVars rest

def armsCheckVars : List CaseWhen → List Var
  | [] => []
  | .mk expr result :: rest => expr.checkVars ++ result.checkVars ++ armsCheckVars rest

def columnsCheckVars : List RowColumn → List Var
  | [] => []
  | .mk _ left right :: rest => left.checkVars ++ right.checkVars ++ columnsCheckVars rest

/-- All Vars of CHECK expressions, domains inside of them included. -/
def constraintsVars : List DomainConstraint → List Var
  | [] => []
  | .notnull _ :: rest => constraintsVars rest
  | .check _ expr :: rest => expr.vars ++ expr.checkVars ++ constraintsVars rest

end

/-! ## Steps that read Vars -/

/-- `P` holds for the steps that read the Var. -/
structure Reads (P : Instr Op Nat → Prop) (v : Var) : Prop where
  var : ∀ res, P { op := varOpcode v res, labels := [] }
  assign : 0 < v.varattno → ∀ resultnum, P { op := .assignVar v.varno (v.varattno - 1).toNat resultnum, labels := [] }

/-- `P` holds for the steps that read one of the Vars. -/
def ReadsAll (P : Instr Op Nat → Prop) (vars : List Var) : Prop := ∀ v ∈ vars, Reads P v

lemma readsAll_nil : ReadsAll P [] := fun _ member => absurd member List.not_mem_nil

@[simp] lemma readsAll_append {a b : List Var} :
    ReadsAll P (a ++ b) ↔ ReadsAll P a ∧ ReadsAll P b := List.forall_mem_append

@[simp] lemma readsAll_singleton : ReadsAll P [v] ↔ Reads P v :=
  List.forall_mem_singleton

lemma isSafeVar_pos (safe : isSafeVar inputDesc v = true) : 0 < v.varattno := by
  simp only [isSafeVar, Bool.and_eq_true, decide_eq_true_eq] at safe
  exact safe.1

lemma safeVar_eq {tle : TargetEntry} {junk : Bool}
    (safe : tle.safeVar junk inputDesc = some v) : tle.expr = .var v ∧ 0 < v.varattno := by
  unfold TargetEntry.safeVar at safe
  split at safe
  · rename_i v' eq
    split at safe
    · rename_i checked
      cases safe
      rw [Bool.and_eq_true] at checked
      exact ⟨eq, isSafeVar_pos checked.2⟩
    · cases safe
  · cases safe

/-! ## Programs -/

def PerTrans.vars (p : PerTrans) : List Var := listVars p.aggdirectargs ++ listVars p.args ++ optionVars p.aggfilter

def PerTrans.checkVars (p : PerTrans) : List Var := listCheckVars p.args ++ optionCheckVars p.aggfilter

/-- The Vars of the trees that a program is built from. -/
def Source.vars : Source → List Var
  | .expr node => node.vars
  | .qual conditions => listVars conditions
  | .check conditions => listVars conditions
  | .element elemexpr => elemexpr.vars
  | .projection targetList _ _ => listVars (targetList.map TargetEntry.expr)
  | .aggTrans _ pertrans => pertrans.flatMap PerTrans.vars
  | .groupingEqual _ _ _ => []

def Source.checkVars : Source → List Var
  | .expr node => node.checkVars
  | .qual conditions => listCheckVars conditions
  | .check conditions => listCheckVars conditions
  | .element elemexpr => elemexpr.checkVars
  | .projection targetList _ _ => listCheckVars (targetList.map TargetEntry.expr)
  | .aggTrans _ pertrans => pertrans.flatMap PerTrans.checkVars
  | .groupingEqual _ _ _ => []

def Source.keys : Source → List GroupColumn
  | .groupingEqual _ _ cols => cols
  | _ => []

lemma makeAndsExplicit_vars : ∀ conditions : List Node, (makeAndsExplicit conditions).vars = listVars conditions
  | [] => rfl
  | [e] => by
    rw [listVars, listVars, List.append_nil]
    rfl
  | _ :: _ :: _ => by
    rw [makeAndsExplicit, Node.vars]
    all_goals nofun

lemma makeAndsExplicit_checkVars : ∀ conditions : List Node,
    (makeAndsExplicit conditions).checkVars = listCheckVars conditions
  | [] => rfl
  | [e] => by
    rw [listCheckVars, listCheckVars, List.append_nil]
    rfl
  | _ :: _ :: _ => by
    rw [makeAndsExplicit, Node.checkVars]
    all_goals nofun

end Hex.Compiler
