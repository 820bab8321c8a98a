/-
# Compiler.Unseen — calls that nothing depends on

Some calls have no effect that a function could see: `MakeExpandedObjectReadOnly` only turns
a pointer into another one, and a transition function of an aggregate that is a pure function
leaves nothing behind. Where no function can tell whether such calls were made before
(`Unseen`), evaluations that differ in them go the same way.

`Related` compares two evaluations up to the hidden calls. `Unaware` says that an evaluation
does not depend on hidden calls made before it, and `Node.value_unaware` says so of the value
of every expression.
-/
import Hex.Compiler.Meaning

namespace Hex.Compiler

section Relation

variable (hidden : Call → Bool)

def visible (trace : List Call) : List Call := trace.filter fun c => !hidden c

/-- No function depends on hidden calls. -/
def Unseen (w : World) : Prop :=
  ∀ (trace trace' : List Call) (c : Call), visible hidden trace = visible hidden trace' →
    w.answer trace c = w.answer trace' c

/-- Two answers are the same up to hidden calls, and their values are related. -/
inductive SameAnswer {α β : Type} (R : α → β → Prop) : Answer α → Answer β → Prop where
  | value {a : α} {b : β} {trace trace' : List Call} (related : R a b)
      (same : visible hidden trace = visible hidden trace') : SameAnswer R (.value a trace) (.value b trace')
  | raised {message : String} {trace trace' : List Call} (same : visible hidden trace = visible hidden trace') :
      SameAnswer R (.raised { message := message, trace := trace }) (.raised { message := message, trace := trace' })
  | notBoolean : SameAnswer R .notBoolean .notBoolean

/-- Two evaluations lead to related values, up to hidden calls before them and in them. -/
def Related {α β : Type} (R : α → β → Prop) (x : Eval α) (y : Eval β) : Prop :=
  ∀ trace trace', visible hidden trace = visible hidden trace' → SameAnswer hidden R (x trace) (y trace')

abbrev Unaware {α : Type} (x : Eval α) : Prop := Related hidden Eq x x

end Relation

variable {hidden : Call → Bool}

lemma visible_append (trace calls : List Call) :
    visible hidden (trace ++ calls) = visible hidden trace ++ visible hidden calls :=
  List.filter_append ..

lemma visible_hidden {trace calls : List Call} (all : ∀ c ∈ calls, hidden c = true) :
    visible hidden (trace ++ calls) = visible hidden trace := by
  have nothing : visible hidden calls = [] := List.filter_eq_nil_iff.mpr fun c member => by simp [all c member]
  rw [visible_append, nothing, List.append_nil]

lemma SameAnswer.of_value {α β : Type} {R : α → β → Prop} {answer : Answer β} {a : α} {trace : List Call}
    (same : SameAnswer hidden R (.value a trace) answer) :
    ∃ b trace', answer = .value b trace' ∧ R a b ∧ visible hidden trace = visible hidden trace' := by
  cases same with
  | value related same => exact ⟨_, _, rfl, related, same⟩

namespace Related

variable {α β γ δ : Type} {R : α → β → Prop} {S : γ → δ → Prop}

lemma pure {a : α} {b : β} (related : R a b) : Related hidden R (Pure.pure a : Eval α) (Pure.pure b : Eval β) :=
  fun _ _ same => .value related same

lemma bind {x : Eval α} {y : Eval β} {f : α → Eval γ} {g : β → Eval δ} (first : Related hidden R x y)
    (second : ∀ a b, R a b → Related hidden S (f a) (g b)) : Related hidden S (x >>= f) (y >>= g) := by
  intro trace trace' same
  change SameAnswer hidden S (Eval.bind x f trace) (Eval.bind y g trace')
  simp only [Eval.bind]
  have answers := first trace trace' same
  generalize x trace = answer, y trace' = answer' at answers
  cases answers with
  | value related same => exact second _ _ related _ _ same
  | raised same => exact .raised same
  | notBoolean => exact .notBoolean

end Related

/-! ## Errors of hidden calls -/

section Tracks

variable (hidden) (w : World)

def HiddenError (e : Raised) : Prop := ∃ trace c, hidden c = true ∧ w.answer trace c = .error e.message

/-- An evaluation with hidden calls leads to a value related to that of an evaluation without
them, unless a hidden call raises an error. -/
def Tracks {α β : Type} (R : α → β → Prop) (x : Eval α) (y : Eval β) : Prop :=
  ∀ trace trace', visible hidden trace = visible hidden trace' →
    SameAnswer hidden R (x trace) (y trace') ∨ ∃ e, x trace = .raised e ∧ HiddenError hidden w e

end Tracks

namespace Tracks

variable {w : World} {α β γ δ : Type} {R : α → β → Prop} {S : γ → δ → Prop}

lemma of_related {x : Eval α} {y : Eval β} (related : Related hidden R x y) : Tracks hidden w R x y :=
  fun trace trace' same => Or.inl (related trace trace' same)

lemma pure {a : α} {b : β} (related : R a b) : Tracks hidden w R (Pure.pure a : Eval α) (Pure.pure b : Eval β) :=
  of_related (Related.pure related)

lemma bind {x : Eval α} {y : Eval β} {f : α → Eval γ} {g : β → Eval δ} (first : Tracks hidden w R x y)
    (second : ∀ a b, R a b → Tracks hidden w S (f a) (g b)) : Tracks hidden w S (x >>= f) (y >>= g) := by
  intro trace trace' same
  change SameAnswer hidden S (Eval.bind x f trace) (Eval.bind y g trace') ∨
    ∃ e, Eval.bind x f trace = .raised e ∧ HiddenError hidden w e
  simp only [Eval.bind]
  rcases first trace trace' same with answers | ⟨e, raised, hiddenError⟩
  · generalize x trace = answer, y trace' = answer' at answers
    cases answers with
    | value related same => exact second _ _ related _ _ same
    | raised same => exact Or.inl (.raised same)
    | notBoolean => exact Or.inl .notBoolean
  · exact Or.inr ⟨e, by rw [raised], hiddenError⟩

lemma imp {R' : α → β → Prop} {x : Eval α} {y : Eval β} (tracks : Tracks hidden w R x y)
    (weaker : ∀ a b, R a b → R' a b) : Tracks hidden w R' x y := by
  intro trace trace' same
  rcases tracks trace trace' same with answers | hiddenError
  · generalize x trace = answer, y trace' = answer' at answers
    cases answers with
    | value related same => exact Or.inl (.value (weaker _ _ related) same)
    | raised same => exact Or.inl (.raised same)
    | notBoolean => exact Or.inl .notBoolean
  · exact Or.inr hiddenError

/-- A hidden call does not show, unless it raises an error. -/
lemma call {c : Call} {f : List NullableDatum → Eval γ} {y : Eval δ} (isHidden : hidden c = true)
    (later : ∀ trace ds, w.answer trace c = .ok ds → Tracks hidden w S (f ds) y) :
    Tracks hidden w S (Eval.call w c >>= f) y := by
  intro trace trace' same
  change SameAnswer hidden S (Eval.bind (Eval.call w c) f trace) (y trace') ∨
    ∃ e, Eval.bind (Eval.call w c) f trace = .raised e ∧ HiddenError hidden w e
  simp only [Eval.bind, Eval.call]
  cases answered : w.answer trace c with
  | error message => exact Or.inr ⟨_, rfl, trace, c, isHidden, answered⟩
  | ok ds =>
    refine later trace ds answered _ _ ?_
    rw [visible_hidden (List.forall_mem_singleton.mpr isHidden), same]

end Tracks

namespace Unaware

variable {α β : Type} {w : World}

lemma pure (a : α) : Unaware hidden (Pure.pure a : Eval α) := Related.pure rfl

lemma raise (message : String) : Unaware hidden (Eval.raise message : Eval α) := fun _ _ same => .raised same

lemma notBoolean : Unaware hidden (Eval.notBoolean : Eval α) := fun _ _ _ => .notBoolean

lemma bind {x : Eval α} {f : α → Eval β} (first : Unaware hidden x) (second : ∀ a, Unaware hidden (f a)) :
    Unaware hidden (x >>= f) := by
  refine Related.bind first ?_
  rintro a _ rfl
  exact second a

lemma ite {p : Prop} [Decidable p] {x y : Eval α} (yes : Unaware hidden x) (no : Unaware hidden y) :
    Unaware hidden (if p then x else y) := by
  split
  · exact yes
  · exact no

lemma truth (v : SqlValue) : Unaware hidden (Eval.truth v) := by
  cases v with
  | none => exact pure none
  | some d => exact ite (pure _) (ite (pure _) notBoolean)

lemma onTwo {f : SqlValue → SqlValue → Eval SqlValue} (both : ∀ x y, Unaware hidden (f x y)) :
    ∀ xs : List SqlValue, Unaware hidden (onTwo f xs)
  | [x, y] => both x y
  | [] => pure _
  | [_] => pure _
  | _ :: _ :: _ :: _ => pure _

section Calls

variable (unseen : Unseen hidden w)

include unseen

lemma call (c : Call) : Unaware hidden (Eval.call w c) := by
  intro trace trace' same
  have shown : visible hidden (trace ++ [c]) = visible hidden (trace' ++ [c]) := by
    rw [visible_append, visible_append, same]
  simp only [Eval.call, unseen trace trace' c same]
  cases w.answer trace' c with
  | error message => exact .raised shown
  | ok ds => exact .value rfl shown

lemma function (f : Func) (args : List SqlValue) : Unaware hidden (Eval.function w f args) :=
  bind (call unseen _) fun _ => pure _

lemma helper (h : Helper) (args : List SqlValue) : Unaware hidden (Eval.helper w h args) :=
  bind (call unseen _) fun _ => pure _

lemma apply (f : Func) (args : List SqlValue) : Unaware hidden (f.apply w args) :=
  ite (pure _) (function unseen f args)

lemma readOnly (v : SqlValue) : Unaware hidden (readOnly w v) := by
  cases v with
  | none => exact pure none
  | some d => exact bind (call unseen _) fun _ => pure _

lemma distinct (f : Func) : ∀ x y : SqlValue, Unaware hidden (isDistinct w f x y)
  | none, none | none, some _ | some _, none => pure _
  | some _, some _ => bind (function unseen f _) fun v => bind (truth v) fun _ => pure _

lemma nullIf (f : Func) : ∀ x y : SqlValue, Unaware hidden (nullIf w f x y)
  | none, _ => pure _
  | some _, none => pure _
  | some _, some _ => bind (function unseen f _) fun v => bind (truth v) fun _ => pure _

lemma varValue (slots : SlotName → Slot) (v : Var) : Unaware hidden (varValue w slots v) :=
  ite (bind (call unseen _) fun _ => pure _) (ite (bind (call unseen _) fun _ => pure _) (pure _))

lemma inputValue (infunc : Func) (typioparam : Oid) (str : Datum) (x : SqlValue) :
    Unaware hidden (inputValue w infunc typioparam str x) :=
  ite (bind (call unseen _) fun _ => pure _) (pure _)

lemma coerceThroughText (outfunc infunc : Func) (typioparam : Oid) : ∀ x : SqlValue,
    Unaware hidden (coerceThroughText w outfunc infunc typioparam x)
  | none => inputValue unseen infunc typioparam 0 none
  | some _ => bind (call unseen _) fun _ => inputValue unseen infunc typioparam _ _

lemma handSubscript (h : Helper) (isAssignment : Bool) (x : SqlValue) : Unaware hidden (handSubscript w h isAssignment x) :=
  bind (call unseen _) fun _ => ite (ite (raise _) (pure _)) (pure _)

lemma fieldsOf (resulttype : Oid) (ncolumns : Nat) (x : SqlValue) : Unaware hidden (fieldsOf w resulttype ncolumns x) :=
  bind (call unseen _) fun _ => pure _

lemma checkedValue (varlena : Bool) (x : SqlValue) : ∀ seen : Option SqlValue, Unaware hidden (checkedValue w varlena x seen)
  | some _ => pure _
  | none => ite (readOnly unseen x) (pure x)

lemma compareColumn (f : Func) (x y : SqlValue) : Unaware hidden (compareColumn w f x y) :=
  bind (apply unseen f _) fun _ => pure _

end Calls

end Unaware

section Induction

variable {w : World} (slots : SlotName → Slot) (setup : Setup) (unseen : Unseen hidden w)

include unseen

set_option linter.unusedSectionVars false

mutual

/-- **The value of an expression does not depend on which values were made read-only.** -/
theorem Node.value_unaware : ∀ (n : Node) (env : Env), Unaware hidden (n.value w slots setup env)
  | .var v, _ => Unaware.varValue unseen slots v
  | .const _, _ | .aggref _ _, _ | .windowFunc _ _ _, _ | .caseTestExpr, _ | .coerceToDomainValue, _ => Unaware.pure _
  | .param _, _ | .groupingFunc _ _, _ | .subPlan _ _ _, _ | .alternativeSubPlan _ _, _ | .sqlValueFunction _, _
  | .currentOfExpr, _ | .nextValueExpr _ _, _ => Unaware.helper unseen _ _
  | .subscriptingRef container refexpr refupperindexpr reflowerindexpr refassgnexpr, env => by
    rw [Node.value]
    refine .bind (refexpr.value_unaware env) fun x => .ite (.pure _) ?_
    refine .bind (subscriptsValue_unaware refupperindexpr env container true _ 0) fun _ => .ite (.pure _) ?_
    refine .bind (subscriptsValue_unaware reflowerindexpr env container false _ 0) fun _ => .ite (.pure _) ?_
    exact assignmentValue_unaware refassgnexpr env container x
  | .funcExpr f args, env | .opExpr f args, env => .bind (listValue_unaware args env) fun _ => Unaware.apply unseen f _
  | .distinctExpr f args, env => .bind (listValue_unaware args env) (Unaware.onTwo (Unaware.distinct unseen f))
  | .nullIfExpr f args, env => .bind (listValue_unaware args env) (Unaware.onTwo (Unaware.nullIf unseen f))
  | .scalarArrayOpExpr _ _ scalararg arrayarg, env =>
    .bind (scalararg.value_unaware env) fun _ => .bind (arrayarg.value_unaware env) fun _ => Unaware.helper unseen _ _
  | .boolExpr .and args, env => listJunction_unaware args .and (some true) env
  | .boolExpr .or args, env => listJunction_unaware args .or (some false) env
  | .boolExpr .not args, env => listNegation_unaware args env
  | .fieldSelect _ _ arg, env => .bind (arg.value_unaware env) fun _ => Unaware.helper unseen _ _
  | .fieldStore resulttype ncolumns arg newvals fieldnums, env =>
    .bind (arg.value_unaware env) fun _ => .bind (Unaware.fieldsOf unseen resulttype ncolumns _) fun _ =>
      .bind (newvalsValue_unaware newvals fieldnums _ env) fun _ => Unaware.helper unseen _ _
  | .relabelType arg, env => arg.value_unaware env
  | .coerceViaIo outfunc infunc typioparam arg, env =>
    .bind (arg.value_unaware env) (Unaware.coerceThroughText unseen outfunc infunc typioparam)
  | .arrayCoerceExpr _ arg _, env => .bind (arg.value_unaware env) fun _ => Unaware.helper unseen _ _
  | .convertRowtypeExpr _ _ arg, env => .bind (arg.value_unaware env) fun _ => Unaware.helper unseen _ _
  | .caseExpr arg varlena args defresult, env => by
    rw [Node.value]
    refine .bind (optionTest_unaware arg varlena env) fun tested => .bind (armsSelect_unaware args tested env) ?_
    rintro (_ | result)
    · exact defresult.value_unaware env
    · exact .pure _
  | .arrayExpr _ _ elements, env => .bind (listValue_unaware elements env) fun _ => Unaware.helper unseen _ _
  | .rowExpr _ attrs args, env => .bind (rowValue_unaware args attrs env) fun _ => Unaware.helper unseen _ _
  | .rowCompareExpr _ columns, env => .bind (columnsCompare_unaware columns env) fun _ => .pure _
  | .coalesceExpr args, env => listCoalesce_unaware args env
  | .minMaxExpr _ _ _ args, env => .bind (listValue_unaware args env) fun _ => Unaware.helper unseen _ _
  | .xmlExpr _ namedArgs args, env =>
    .bind (listValue_unaware namedArgs env) fun _ => .bind (listValue_unaware args env) fun _ =>
      Unaware.helper unseen _ _
  | .nullTest _ _ arg, env => .bind (arg.value_unaware env) fun _ => .ite (Unaware.helper unseen _ _) (.pure _)
  | .booleanTest _ arg, env => .bind (arg.value_unaware env) fun v => .bind (.truth v) fun _ => .pure _
  | .coerceToDomain typeName varlena arg constraints, env =>
    .bind (arg.value_unaware env) fun x =>
      .bind (constraintsCheck_unaware constraints env typeName varlena x none) fun _ => .pure x

lemma listValue_unaware : ∀ (args : List Node) (env : Env), Unaware hidden (listValue w slots setup args env)
  | [], _ => .pure _
  | e :: rest, env => .bind (e.value_unaware env) fun _ => .bind (listValue_unaware rest env) fun _ => .pure _

lemma rowValue_unaware : ∀ (args : List Node) (attrs : List RowAttr) (env : Env),
    Unaware hidden (rowValue w slots setup args attrs env)
  | [], _, _ => .pure _
  | _ :: _, [], _ => .pure _
  | e :: rest, _ :: attrs, env =>
    .bind (.ite (.pure _) (e.value_unaware env)) fun _ => .bind (rowValue_unaware rest attrs env) fun _ => .pure _

lemma listJunction_unaware : ∀ (args : List Node) (boolop : AndOr) (acc : Option Bool) (env : Env),
    Unaware hidden (listJunction w slots setup args boolop acc env)
  | [], _, _, _ => .pure _
  | e :: rest, boolop, acc, env =>
    .bind (e.value_unaware env) fun v => .bind (.truth v) fun b =>
      .ite (.pure _) (listJunction_unaware rest boolop (boolop.connect acc b) env)

lemma listNegation_unaware : ∀ (args : List Node) (env : Env), Unaware hidden (listNegation w slots setup args env)
  | [], _ => .pure _
  | e :: _, env => .bind (e.value_unaware env) fun v => .bind (.truth v) fun _ => .pure _

lemma listCoalesce_unaware : ∀ (args : List Node) (env : Env), Unaware hidden (listCoalesce w slots setup args env)
  | [], _ => .pure _
  | e :: rest, env => by
    rw [listCoalesce]
    refine .bind (e.value_unaware env) ?_
    rintro (_ | d)
    · exact listCoalesce_unaware rest env
    · exact .pure _

lemma optionTest_unaware : ∀ (arg : Option Node) (varlena : Bool) (env : Env),
    Unaware hidden (optionTest w slots setup arg varlena env)
  | none, _, _ => .pure _
  | some arg, _, env => .bind (arg.value_unaware env) fun x => .ite (Unaware.readOnly unseen x) (.pure x)

lemma armsSelect_unaware : ∀ (arms : List CaseWhen) (tested : SqlValue) (env : Env),
    Unaware hidden (armsSelect w slots setup arms tested env)
  | [], _, _ => .pure _
  | .mk expr result :: rest, tested, env =>
    .bind (expr.value_unaware _) fun v => .bind (.truth v) fun _ =>
      .ite (.bind (result.value_unaware env) fun _ => .pure _) (armsSelect_unaware rest tested env)

lemma columnsCompare_unaware : ∀ (columns : List RowColumn) (env : Env),
    Unaware hidden (columnsCompare w slots setup columns env)
  | [], _ => .pure _
  | .mk oper left right :: rest, env => by
    rw [columnsCompare]
    refine .bind (left.value_unaware env) fun x => .bind (right.value_unaware env) fun y => ?_
    refine .bind (Unaware.compareColumn unseen oper.proc x y) fun decided => ?_
    split
    · exact columnsCompare_unaware rest env
    · exact .pure _

lemma subscriptsValue_unaware : ∀ (subscripts : List (Option Node)) (env : Env) (container : Oid)
    (isupper isAssignment : Bool) (i : Nat),
    Unaware hidden (subscriptsValue w slots setup subscripts env container isupper isAssignment i)
  | [], _, _, _, _, _ => .pure _
  | none :: rest, env, container, isupper, isAssignment, i =>
    subscriptsValue_unaware rest env container isupper isAssignment (i + 1)
  | some e :: rest, env, container, isupper, isAssignment, i =>
    .bind (e.value_unaware env) fun x => .bind (Unaware.handSubscript unseen _ isAssignment x) fun _ =>
      .ite (subscriptsValue_unaware rest env container isupper isAssignment (i + 1)) (.pure _)

lemma assignmentValue_unaware : ∀ (e : Option Node) (env : Env) (container : Oid) (x : SqlValue),
    Unaware hidden (assignmentValue w slots setup e env container x)
  | none, _, _, _ => Unaware.helper unseen _ _
  | some e, _, _, _ =>
    .bind (.ite (Unaware.helper unseen _ _) (.pure _)) fun _ => .bind (e.value_unaware _) fun _ =>
      Unaware.helper unseen _ _

lemma newvalsValue_unaware : ∀ (newvals : List Node) (fieldnums : List Int) (fields : List SqlValue) (env : Env),
    Unaware hidden (newvalsValue w slots setup newvals fieldnums fields env)
  | [], _, _, _ => .pure _
  | _ :: _, [], _, _ => .pure _
  | e :: rest, _ :: fieldnums, fields, env =>
    .ite (newvalsValue_unaware rest fieldnums fields env)
      (.bind (e.value_unaware _) fun _ => newvalsValue_unaware rest fieldnums _ env)

lemma constraintsCheck_unaware : ∀ (constraints : List DomainConstraint) (env : Env) (typeName : String)
    (varlena : Bool) (x : SqlValue) (seen : Option SqlValue),
    Unaware hidden (constraintsCheck w slots setup constraints env typeName varlena x seen)
  | [], _, _, _, _, _ => .pure _
  | .notnull _ :: rest, env, typeName, varlena, x, seen =>
    .ite (.raise _) (constraintsCheck_unaware rest env typeName varlena x seen)
  | .check _ expr :: rest, env, typeName, varlena, x, seen =>
    .bind (Unaware.checkedValue unseen varlena x seen) fun value => .bind (expr.value_unaware _) fun _ =>
      .ite (.raise _) (constraintsCheck_unaware rest env typeName varlena x (some value))

end

end Induction

end Hex.Compiler
