/-
# Compiler.Meaning — what every expression means

`Sql` gives the meaning of scalar expressions. Here it is given for all nodes that the
executor knows, in the same terms: parts are evaluated from left to right and only when their
value is needed, and what an out-of-line function does is a call. The value of an expression
may depend on the values `env` that its placeholders stand for.

`Node.proper` says which trees the parser and planner produce. The executor relies on it: an
AND has at least two arguments, NULLIF has two, and the old value of a field or an element is
read through a placeholder only where the source expects it.
-/
import Hex.Compiler.Code
import Hex.Compiler.Sql
import Hex.Compiler.WellFormed

namespace Hex.Compiler

namespace Eval

/-- `ereport(ERROR)`. -/
def raise {α : Type} (message : String) : Eval α := fun trace => .raised { message := message, trace := trace }

def helper (w : World) (h : Helper) (args : List SqlValue) : Eval SqlValue :=
  call w (.helper h args) >>= fun ds => pure (returned ds).sql

end Eval

/-! ## Operations on values -/

def onTwo (f : SqlValue → SqlValue → Eval SqlValue) : List SqlValue → Eval SqlValue
  | [x, y] => f x y
  | _ => pure none

/-- The input function of a coercion through text, given the text; the value is `x` so far. A
strict one is not called without a text. -/
def inputValue (w : World) (infunc : Func) (typioparam : Oid) (str : Datum) (x : SqlValue) : Eval SqlValue :=
  if !infunc.fnStrict || str != 0 then
    Eval.call w (.function infunc
      [if x.isNone then none else some str, some (BitVec.ofNat 64 typioparam), some (BitVec.ofInt 64 (-1))]) >>=
      fun ds => pure (x.map fun _ => (returned ds).value)
  else pure x

def coerceThroughText (w : World) (outfunc infunc : Func) (typioparam : Oid) : SqlValue → Eval SqlValue
  | none => inputValue w infunc typioparam 0 none
  | some d =>
    Eval.call w (.function outfunc [some d]) >>= fun ds => inputValue w infunc typioparam (returned ds).value (some d)

/-- Hand over a subscript; `false` if it is NULL in a fetch. -/
def handSubscript (w : World) (helper : Helper) (isAssignment : Bool) (x : SqlValue) : Eval Bool :=
  Eval.call w (.helper helper [x]) >>= fun _ =>
    if x.isNone then
      if isAssignment then Eval.raise "array subscript in assignment must not be null" else pure false
    else pure true

def fieldsOf (w : World) (resulttype : Oid) (ncolumns : Nat) (x : SqlValue) : Eval (List SqlValue) :=
  Eval.call w (.helper (.fieldStoreDeForm resulttype) [x]) >>= fun ds =>
    pure ((List.range ncolumns).map fun i => (returned (ds.drop i)).sql)

/-- The value that checks see: the one that was chosen, or the value itself, read-only. -/
def checkedValue (w : World) (varlena : Bool) (x : SqlValue) : Option SqlValue → Eval SqlValue
  | some value => pure value
  | none => if varlena then readOnly w x else pure x

def KeepsReadOnly (w : World) : Prop :=
  ∀ (trace : List Call) (d : Datum), ∃ ds, w.answer trace (.makeReadOnly d) = .ok ds ∧ (returned ds).value = d

/-- The call that makes a value read-only, where it is `needed` and the value is not NULL. -/
def readOnlyCalls (needed : Bool) (x : SqlValue) : List Call := if needed then x.toList.map .makeReadOnly else []

lemma readOnly_keeps {w : World} (keeps : KeepsReadOnly w) (needed : Bool) (x : SqlValue) (trace : List Call) :
    (if needed then readOnly w x else pure x : Eval SqlValue) trace = .value x (trace ++ readOnlyCalls needed x) := by
  cases needed with
  | false => simp [readOnlyCalls, Pure.pure, Eval.pure]
  | true =>
    cases x with
    | none => simp [readOnlyCalls, readOnly, Pure.pure, Eval.pure]
    | some d =>
      obtain ⟨ds, answered, kept⟩ := keeps trace d
      change Eval.bind (Eval.call w (.makeReadOnly d)) _ trace = _
      simp only [Eval.bind, Eval.call, answered, kept]
      rfl

/-- NULL for the columns that no argument stands for. -/
def padNulls (n : Nat) (xs : List SqlValue) : List SqlValue := xs ++ List.replicate (n - xs.length) none

/-- The element program of an array coercion, unless it has nothing to do. -/
def elementProgram (setup : Setup) (elemexpr : Node) : Option Node :=
  elemExpr (trivialElem (gen setup elemexpr { caseval := some (.work 0), domainval := none } .result)) elemexpr

/-! ## The value of a node -/

variable (w : World) (slots : SlotName → Slot) (setup : Setup)

mutual

def Node.value : Node → Env → Eval SqlValue
  | .var v, _ => varValue w slots v
  | .const con, _ => pure con.sql
  | .param p, _ => Eval.helper w (.param p) []
  | .aggref aggno _, _ => pure (w.aggValue aggno).sql
  | .groupingFunc cols _, _ => Eval.helper w (.groupingFunc (if setup.groupingSets then cols else [])) []
  | .windowFunc wfuncno _ _, _ => pure (w.aggValue wfuncno).sql
  | .subscriptingRef container refexpr refupperindexpr reflowerindexpr refassgnexpr, env => do
    let x ← refexpr.value env
    -- a fetch from NULL is NULL
    if !refassgnexpr.isSome && x.isNone then pure none
    else if !(← subscriptsValue refupperindexpr env container true refassgnexpr.isSome 0) then pure none
    else if !(← subscriptsValue reflowerindexpr env container false refassgnexpr.isSome 0) then pure none
    else assignmentValue refassgnexpr env container x
  | .funcExpr f args, env => listValue args env >>= f.apply w
  | .opExpr f args, env => listValue args env >>= f.apply w
  | .distinctExpr f args, env => listValue args env >>= onTwo (isDistinct w f)
  | .nullIfExpr f args, env => listValue args env >>= onTwo (nullIf w f)
  | .scalarArrayOpExpr f useOr scalararg arrayarg, env => do
    let x ← scalararg.value env
    let array ← arrayarg.value env
    Eval.helper w (.scalarArrayOp f useOr) [x, array]
  | .boolExpr .and args, env => listJunction args .and (some true) env
  | .boolExpr .or args, env => listJunction args .or (some false) env
  | .boolExpr .not args, env => listNegation args env
  | .subPlan planId _ _, _ => Eval.helper w (.subPlan planId) []
  | .alternativeSubPlan planId _, _ => Eval.helper w (.alternativeSubPlan planId) []
  | .fieldSelect fieldnum resulttype arg, env => do
    let x ← arg.value env
    Eval.helper w (.fieldSelect fieldnum resulttype) [x]
  | .fieldStore resulttype ncolumns arg newvals fieldnums, env => do
    let x ← arg.value env
    let fields ← fieldsOf w resulttype ncolumns x
    let fields ← newvalsValue newvals fieldnums fields env
    Eval.helper w (.fieldStoreForm resulttype) fields
  | .relabelType arg, env => arg.value env
  | .coerceViaIo outfunc infunc typioparam arg, env => arg.value env >>= coerceThroughText w outfunc infunc typioparam
  | .arrayCoerceExpr resultelemtype arg elemexpr, env => do
    let x ← arg.value env
    Eval.helper w (.arrayCoerce resultelemtype (elementProgram setup elemexpr)) [x]
  | .convertRowtypeExpr inputtype outputtype arg, env => do
    let x ← arg.value env
    Eval.helper w (.convertRowtype inputtype outputtype) [x]
  | .caseExpr arg varlena args defresult, env => do
    let tested ← optionTest arg varlena env
    match ← armsSelect args tested env with
    | some result => pure result
    | none => defresult.value env
  | .caseTestExpr, env => pure env.caseval
  | .arrayExpr elementType multidims elements, env =>
    listValue elements env >>= Eval.helper w (.arrayExpr elementType multidims)
  | .rowExpr rowType attrs args, env => do
    let xs ← rowValue args attrs env
    Eval.helper w (.row rowType) (padNulls (max args.length attrs.length) xs)
  | .rowCompareExpr rctype columns, env => do
    let compared ← columnsCompare columns env
    pure (boolSql (compared.map rctype.holds))
  | .coalesceExpr args, env => listCoalesce args env
  | .minMaxExpr greatest _ cmp args, env => listValue args env >>= Eval.helper w (.minMax greatest cmp)
  | .sqlValueFunction op, _ => Eval.helper w (.sqlValueFunction op) []
  | .xmlExpr op namedArgs args, env => do
    let named ← listValue namedArgs env
    let xs ← listValue args env
    Eval.helper w (.xmlExpr op namedArgs.length) (named ++ xs)
  | .nullTest isNull argisrow arg, env => do
    let x ← arg.value env
    if argisrow then Eval.helper w (.rowNull isNull) [x]
    else pure (boolSql (some (if isNull then x.isNone else x.isSome)))
  | .booleanTest booltesttype arg, env => do
    let b ← Eval.truth (← arg.value env)
    pure (boolSql (some (booltesttype.test b)))
  | .coerceToDomain typeName varlena arg constraints, env => do
    let x ← arg.value env
    constraintsCheck constraints env typeName varlena x none
    pure x
  | .coerceToDomainValue, env => pure env.domainval
  | .currentOfExpr, _ => Eval.helper w .currentOfExpr []
  | .nextValueExpr seqid seqtypid, _ => Eval.helper w (.nextValueExpr seqid seqtypid) []

def listValue : List Node → Env → Eval (List SqlValue)
  | [], _ => pure []
  | e :: rest, env => do
    let x ← e.value env
    let xs ← listValue rest env
    pure (x :: xs)

def rowValue : List Node → List RowAttr → Env → Eval (List SqlValue)
  | e :: rest, att :: attrs, env => do
    let x ← (if att.attisdropped then pure none else e.value env : Eval SqlValue)
    let xs ← rowValue rest attrs env
    pure (x :: xs)
  | _, _, _ => pure []

/-- The rest of an AND or OR, which is `acc` so far. -/
def listJunction : List Node → AndOr → Option Bool → Env → Eval SqlValue
  | [], _, acc, _ => pure (boolSql acc)
  | e :: rest, boolop, acc, env => do
    let b ← Eval.truth (← e.value env)
    if boolop.connect acc b = some boolop.dominant then pure (boolSql (boolop.connect acc b))
    else listJunction rest boolop (boolop.connect acc b) env

def listNegation : List Node → Env → Eval SqlValue
  | e :: _, env => do
    let b ← Eval.truth (← e.value env)
    pure (boolSql (not3 b))
  | [], _ => pure none

def listCoalesce : List Node → Env → Eval SqlValue
  | [], _ => pure none
  | e :: rest, env => do
    match ← e.value env with
    | some d => pure (some d)
    | none => listCoalesce rest env

def optionTest : Option Node → Bool → Env → Eval SqlValue
  | none, _, _ => pure w.caseValue.sql
  | some arg, varlena, env => do
    let x ← arg.value env
    if varlena then readOnly w x else pure x

/-- The result of the first arm whose condition is true, if there is one. -/
def armsSelect : List CaseWhen → SqlValue → Env → Eval (Option SqlValue)
  | [], _, _ => pure none
  | .mk expr result :: rest, tested, env => do
    let b ← Eval.truth (← expr.value { env with caseval := tested })
    if b = some true then
      let x ← result.value env
      pure (some x)
    else armsSelect rest tested env

/-- The first comparison of columns that is not zero; `none` if one before it is NULL. -/
def columnsCompare : List RowColumn → Env → Eval (Option Int)
  | [], _ => pure (some 0)
  | .mk oper left right :: rest, env => do
    let x ← left.value env
    let y ← right.value env
    match ← compareColumn w oper.proc x y with
    | some 0 => columnsCompare rest env
    | decided => pure decided

/-- Hand over the subscripts of a container; `false` if one of them is NULL in a fetch. -/
def subscriptsValue : List (Option Node) → Env → Oid → Bool → Bool → Nat → Eval Bool
  | [], _, _, _, _, _ => pure true
  | none :: rest, env, container, isupper, isAssignment, i =>
    subscriptsValue rest env container isupper isAssignment (i + 1)
  | some e :: rest, env, container, isupper, isAssignment, i => do
    let x ← e.value env
    if ← handSubscript w (.subscriptingRef container isupper i) isAssignment x then
      subscriptsValue rest env container isupper isAssignment (i + 1)
    else pure false

/-- Fetch from a container, or assign to it. The old value is there for an expression that
assigns to a part of the element. -/
def assignmentValue : Option Node → Env → Oid → SqlValue → Eval SqlValue
  | none, _, container, x => Eval.helper w (.subscriptingRefFetch container) [x]
  | some e, env, container, x => do
    let old ← (if isAssignmentIndirectionExpr e then Eval.helper w (.subscriptingRefOld container) [x]
      else pure none : Eval SqlValue)
    let y ← e.value { env with caseval := old }
    Eval.helper w (.subscriptingRefAssign container) [x, y]

/-- The fields of a row with the new values; each sees the value that is there so far. -/
def newvalsValue : List Node → List Int → List SqlValue → Env → Eval (List SqlValue)
  | e :: rest, fieldnum :: fieldnums, fields, env =>
    if fieldnum ≤ 0 ∨ fieldnum > fields.length then newvalsValue rest fieldnums fields env
    else do
      let x ← e.value { env with caseval := fields.getD (fieldnum - 1).toNat none }
      newvalsValue rest fieldnums (fields.set (fieldnum - 1).toNat x) env
  | _, _, fields, _ => pure fields

/-- Check the constraints of a domain for the value `x`, in order. CHECK expressions see it
read-only, once it was made so. -/
def constraintsCheck : List DomainConstraint → Env → String → Bool → SqlValue → Option SqlValue → Eval Unit
  | [], _, _, _, _, _ => pure ()
  | .notnull _ :: rest, env, typeName, varlena, x, domainval =>
    if x.isNone then Eval.raise ("domain " ++ typeName ++ " does not allow null values")
    else constraintsCheck rest env typeName varlena x domainval
  | .check name expr :: rest, env, typeName, varlena, x, domainval => do
    let value ← checkedValue w varlena x domainval
    let holds ← expr.value { env with domainval := value }
    if holds.any fun d => !datumGetBool d then
      Eval.raise ("value for domain " ++ typeName ++ " violates check constraint \"" ++ name ++ "\"")
    else constraintsCheck rest env typeName varlena x (some value)

end

/-! ## Trees of the planner -/

/-- The result may go into the cell of the test value: it is read before the cell is written. -/
def Node.inPlace : Node → Bool
  | .subscriptingRef _ refexpr refupperindexpr reflowerindexpr _ =>
    refexpr.inPlace && !subscriptsUseCase refupperindexpr && !subscriptsUseCase reflowerindexpr
  | .scalarArrayOpExpr _ _ _ arrayarg => arrayarg.inPlace
  | .boolExpr _ _ => false
  | .fieldSelect _ _ arg => arg.inPlace
  | .fieldStore _ _ arg _ _ => arg.inPlace
  | .relabelType arg => arg.inPlace
  | .coerceViaIo _ _ _ arg => arg.inPlace
  | .arrayCoerceExpr _ arg _ => arg.inPlace
  | .convertRowtypeExpr _ _ arg => arg.inPlace
  | .caseExpr _ _ _ _ => false
  | .rowCompareExpr _ _ => false
  | .coalesceExpr _ => false
  | .nullTest _ _ arg => arg.inPlace
  | .booleanTest _ arg => arg.inPlace
  | .coerceToDomain _ _ arg constraints => arg.inPlace && !constraintsUseCase constraints
  | _ => true

/-- What the compiler takes for granted about a node: the number of arguments that it asserts,
and where the old value of a field or an element may be read. -/
def Node.fits : Node → Bool
  | .subscriptingRef _ _ _ _ (some refassgnexpr) => !refassgnexpr.usesCase || isAssignmentIndirectionExpr refassgnexpr
  | .distinctExpr _ args => args.length == 2
  | .nullIfExpr _ args => args.length == 2
  | .boolExpr boolop args => boolop.asserts args.length
  | .fieldStore _ _ _ newvals _ => newvals.all fun e => !e.usesCase || e.inPlace
  | .coalesceExpr args => !args.isEmpty
  | _ => true

section Every

variable (p : Node → Bool)

mutual

/-- A test holds of every node that is compiled. -/
def Node.every : Node → Bool
  | .subscriptingRef container refexpr refupperindexpr reflowerindexpr refassgnexpr =>
    p (.subscriptingRef container refexpr refupperindexpr reflowerindexpr refassgnexpr) && refexpr.every &&
      subscriptsEvery refupperindexpr && subscriptsEvery reflowerindexpr && optionEvery refassgnexpr
  | .funcExpr f args => p (.funcExpr f args) && listEvery args
  | .opExpr f args => p (.opExpr f args) && listEvery args
  | .distinctExpr f args => p (.distinctExpr f args) && listEvery args
  | .nullIfExpr f args => p (.nullIfExpr f args) && listEvery args
  | .scalarArrayOpExpr f useOr scalararg arrayarg =>
    p (.scalarArrayOpExpr f useOr scalararg arrayarg) && scalararg.every && arrayarg.every
  | .boolExpr boolop args => p (.boolExpr boolop args) && listEvery args
  | .fieldSelect fieldnum resulttype arg => p (.fieldSelect fieldnum resulttype arg) && arg.every
  | .fieldStore resulttype ncolumns arg newvals fieldnums =>
    p (.fieldStore resulttype ncolumns arg newvals fieldnums) && arg.every && listEvery newvals
  | .relabelType arg => p (.relabelType arg) && arg.every
  | .coerceViaIo outfunc infunc typioparam arg => p (.coerceViaIo outfunc infunc typioparam arg) && arg.every
  | .arrayCoerceExpr resultelemtype arg elemexpr => p (.arrayCoerceExpr resultelemtype arg elemexpr) && arg.every
  | .convertRowtypeExpr inputtype outputtype arg => p (.convertRowtypeExpr inputtype outputtype arg) && arg.every
  | .caseExpr arg varlena args defresult =>
    p (.caseExpr arg varlena args defresult) && optionEvery arg && armsEvery args && defresult.every
  | .arrayExpr elementType multidims elements => p (.arrayExpr elementType multidims elements) && listEvery elements
  | .rowExpr rowType attrs args => p (.rowExpr rowType attrs args) && listEvery args
  | .rowCompareExpr rctype columns => p (.rowCompareExpr rctype columns) && columnsEvery columns
  | .coalesceExpr args => p (.coalesceExpr args) && listEvery args
  | .minMaxExpr greatest minmaxtype cmp args => p (.minMaxExpr greatest minmaxtype cmp args) && listEvery args
  | .xmlExpr op namedArgs args => p (.xmlExpr op namedArgs args) && listEvery namedArgs && listEvery args
  | .nullTest isNull argisrow arg => p (.nullTest isNull argisrow arg) && arg.every
  | .booleanTest booltesttype arg => p (.booleanTest booltesttype arg) && arg.every
  | .coerceToDomain typeName varlena arg constraints =>
    p (.coerceToDomain typeName varlena arg constraints) && arg.every && constraintsEvery constraints
  | leaf => p leaf

def listEvery : List Node → Bool
  | [] => true
  | e :: rest => e.every && listEvery rest

def subscriptsEvery : List (Option Node) → Bool
  | [] => true
  | none :: rest => subscriptsEvery rest
  | some e :: rest => e.every && subscriptsEvery rest

def optionEvery : Option Node → Bool
  | none => true
  | some e => e.every

def armsEvery : List CaseWhen → Bool
  | [] => true
  | .mk expr result :: rest => expr.every && result.every && armsEvery rest

def columnsEvery : List RowColumn → Bool
  | [] => true
  | .mk _ left right :: rest => left.every && right.every && columnsEvery rest

def constraintsEvery : List DomainConstraint → Bool
  | [] => true
  | .notnull _ :: rest => constraintsEvery rest
  | .check _ expr :: rest => expr.every && constraintsEvery rest

end

end Every

/-- A tree as the parser and planner produce it. -/
def Node.proper (n : Node) : Bool := n.every Node.fits

/-! ## Scalar expressions -/

lemma AndOr.and_true (b : Option Bool) : AndOr.and.connect (some true) b = b := by rcases b with _ | _ | _ <;> rfl

lemma AndOr.or_false (b : Option Bool) : AndOr.or.connect (some false) b = b := by rcases b with _ | _ | _ <;> rfl

mutual

lemma SqlExpr.toNode_value : ∀ (e : SqlExpr) (env : Env),
    e.toNode.value w slots setup env = e.value w slots env.caseval
  | .const con, _ => rfl
  | .var v, _ => rfl
  | .func f args, env | .op f args, env => congrArg (· >>= f.apply w) (toNodes_value args env)
  | .relabel arg, env => arg.toNode_value env
  | .distinct _ left right, env | .nullIf _ left right, env => by
    simp only [SqlExpr.toNode, Node.value, listValue, SqlExpr.value, left.toNode_value env, right.toNode_value env,
      Eval.bind_assoc, Eval.pure_bind, onTwo]
  | .junction .and first second rest, env => by
    simp only [SqlExpr.toNode, AndOr.toBoolOp, Node.value, listJunction, SqlExpr.value, first.toNode_value env,
      second.toNode_value env, toNodes_junction rest _ _ env]
    congr 1; funext x; congr 1; funext b
    rw [AndOr.and_true]
  | .junction .or first second rest, env => by
    simp only [SqlExpr.toNode, AndOr.toBoolOp, Node.value, listJunction, SqlExpr.value, first.toNode_value env,
      second.toNode_value env, toNodes_junction rest _ _ env]
    congr 1; funext x; congr 1; funext b
    rw [AndOr.or_false]
  | .not arg, env => by
    simp only [SqlExpr.toNode, Node.value, listNegation, SqlExpr.value, arg.toNode_value env]
  | .case arg varlena arms default, env => by
    simp only [SqlExpr.value, ← toNode?_value arg varlena env, ← default.toNode_value env, ← toWhens_value arms _ env]
    rfl
  | .caseTest, _ => rfl
  | .coalesce first rest, env => by
    rw [SqlExpr.value, ← first.toNode_value env, ← toNodes_coalesce rest env]
    rfl
  | .nullTest isNull arg, env => by
    simp only [SqlExpr.toNode, Node.value, SqlExpr.value, arg.toNode_value env]
    rfl
  | .booleanTest booltesttype arg, env => by
    simp only [SqlExpr.toNode, Node.value, SqlExpr.value, arg.toNode_value env]
  | .rowCompare rctype columns, env => by
    simp only [SqlExpr.toNode, Node.value, SqlExpr.value, toColumns_value columns env]

lemma toNodes_value : ∀ (args : List SqlExpr) (env : Env),
    listValue w slots setup (toNodes args) env = values w slots args env.caseval
  | [], _ => rfl
  | e :: rest, env => by
    simp only [toNodes, listValue, values, e.toNode_value env, toNodes_value rest env]

lemma toNodes_junction : ∀ (args : List SqlExpr) (boolop : AndOr) (acc : Option Bool) (env : Env),
    listJunction w slots setup (toNodes args) boolop acc env = junctionValue w slots args boolop acc env.caseval
  | [], _, _, _ => rfl
  | e :: rest, boolop, acc, env => by
    simp only [toNodes, listJunction, junctionValue, e.toNode_value env, toNodes_junction rest boolop _ env]

lemma toNodes_coalesce : ∀ (args : List SqlExpr) (env : Env),
    listCoalesce w slots setup (toNodes args) env = coalesceValue w slots args env.caseval
  | [], _ => rfl
  | e :: rest, env => by
    rw [coalesceValue, ← e.toNode_value env, ← toNodes_coalesce rest env]
    rfl

lemma toNode?_value : ∀ (arg : Option SqlExpr) (varlena : Bool) (env : Env),
    optionTest w slots setup (toNode? arg) varlena env = testValue w slots arg varlena env.caseval
  | none, _, _ => rfl
  | some e, varlena, env => by
    simp only [toNode?, optionTest, testValue, e.toNode_value env]

lemma toWhens_value : ∀ (arms : List SqlWhen) (tested : SqlValue) (env : Env),
    armsSelect w slots setup (toWhens arms) tested env = armsValue w slots arms tested env.caseval
  | [], _, _ => rfl
  | .mk expr result :: rest, tested, env => by
    simp only [toWhens, armsSelect, armsValue, expr.toNode_value, result.toNode_value env,
      toWhens_value rest tested env]

lemma toColumns_value : ∀ (columns : List SqlColumn) (env : Env),
    columnsCompare w slots setup (toColumns columns) env = columnsValue w slots columns env.caseval
  | [], _ => rfl
  | .mk oper left right :: rest, env => by
    rw [columnsValue, ← left.toNode_value env, ← right.toNode_value env, ← toColumns_value rest env]
    rfl

end

mutual

lemma SqlExpr.toNode_proper : ∀ e : SqlExpr, e.toNode.every Node.fits = true
  | .const _ | .var _ | .caseTest => rfl
  | .func _ args | .op _ args => toNodes_proper args
  | .relabel arg => arg.toNode_proper
  | .distinct _ left right | .nullIf _ left right => by
    simp [SqlExpr.toNode, Node.every, Node.fits, listEvery, left.toNode_proper, right.toNode_proper]
  | .junction boolop first second rest => by
    cases boolop <;> simp [SqlExpr.toNode, AndOr.toBoolOp, Node.every, Node.fits, BoolOp.asserts, listEvery,
      first.toNode_proper, second.toNode_proper, toNodes_proper rest]
  | .not arg => by
    simp [SqlExpr.toNode, Node.every, Node.fits, BoolOp.asserts, listEvery, arg.toNode_proper]
  | .case none _ arms default => by
    simp [SqlExpr.toNode, toNode?, Node.every, Node.fits, optionEvery, toWhens_proper arms, default.toNode_proper]
  | .case (some arg) _ arms default => by
    simp [SqlExpr.toNode, toNode?, Node.every, Node.fits, optionEvery, arg.toNode_proper, toWhens_proper arms,
      default.toNode_proper]
  | .coalesce first rest => by
    simp [SqlExpr.toNode, Node.every, Node.fits, listEvery, first.toNode_proper, toNodes_proper rest]
  | .nullTest _ arg | .booleanTest _ arg => arg.toNode_proper
  | .rowCompare _ columns => toColumns_proper columns

lemma toNodes_proper : ∀ args : List SqlExpr, listEvery Node.fits (toNodes args) = true
  | [] => rfl
  | e :: rest => by simp [toNodes, listEvery, e.toNode_proper, toNodes_proper rest]

lemma toWhens_proper : ∀ arms : List SqlWhen, armsEvery Node.fits (toWhens arms) = true
  | [] => rfl
  | .mk expr result :: rest => by
    simp [toWhens, armsEvery, expr.toNode_proper, result.toNode_proper, toWhens_proper rest]

lemma toColumns_proper : ∀ columns : List SqlColumn, columnsEvery Node.fits (toColumns columns) = true
  | [] => rfl
  | .mk _ left right :: rest => by
    simp [toColumns, columnsEvery, left.toNode_proper, right.toNode_proper, toColumns_proper rest]

end

end Hex.Compiler
