/-
# Compiler.Domain — coercions to a domain

`ExecInitCoerceToDomain` evaluates the argument into the result cell and then checks the
constraints of the domain for it, in order. NOT NULL looks at the result cell. A CHECK is an
expression in which CoerceToDomainValue stands for the argument; before the first CHECK of
a varlena type the argument is made read-only in a cell of its own. A CHECK may coerce to
other domains, and their checks see their own arguments.

`ConstraintsHold` and `Violated` say that for a list of constraints and an argument.
**`coerceToDomain_constraints`**: a coercion at any depth returns its argument exactly if all
constraints hold, and raises the error of the first one that does not.
-/
import Hex.Compiler.ProgramRun

namespace Hex.Compiler

/-! ## Constraints -/

def DomainConstraint.isCheck : DomainConstraint → Bool
  | .notnull _ => false
  | .check _ _ => true

section Constraints

-- `value` is the value of a CHECK expression for the argument `x`; where `made` holds, the argument
-- was made read-only for an earlier CHECK
variable (value : Node → Eval SqlValue) (typeName : String) (varlena : Bool) (x : SqlValue)

/-- A constraint holds; a CHECK does so if it is true or NULL. -/
inductive ConstraintHolds (made : Bool) : DomainConstraint → List Call → List Call → Prop where
  | notnull {name : String} {trace : List Call} (present : x ≠ none) :
      ConstraintHolds made (.notnull name) trace trace
  | check {name : String} {expr : Node} {v : SqlValue} {trace trace₁ : List Call}
      (evaluated : value expr (trace ++ readOnlyCalls (varlena && !made) x) = .value v trace₁)
      (notFalse : ∀ d, v = some d → datumGetBool d = true) : ConstraintHolds made (.check name expr) trace trace₁

/-- A constraint is violated, with the error that is raised. A CHECK may raise an error itself,
as when it coerces to another domain. -/
inductive Violated (made : Bool) : DomainConstraint → List Call → Raised → Prop where
  | notnull {name : String} {trace : List Call} (missing : x = none) :
      Violated made (.notnull name) trace
        { message := "domain " ++ typeName ++ " does not allow null values", trace := trace }
  | check {name : String} {expr : Node} {d : Datum} {trace trace₁ : List Call}
      (evaluated : value expr (trace ++ readOnlyCalls (varlena && !made) x) = .value (some d) trace₁)
      (isFalse : datumGetBool d = false) :
      Violated made (.check name expr) trace
        { message := "value for domain " ++ typeName ++ " violates check constraint \"" ++ name ++ "\""
          trace := trace₁ }
  | raised {name : String} {expr : Node} {trace : List Call} {e : Raised}
      (evaluated : value expr (trace ++ readOnlyCalls (varlena && !made) x) = .raised e) :
      Violated made (.check name expr) trace e

inductive ConstraintsHold : Bool → List DomainConstraint → List Call → List Call → Prop where
  | nil {made : Bool} {trace : List Call} : ConstraintsHold made [] trace trace
  | cons {made : Bool} {c : DomainConstraint} {rest : List DomainConstraint} {trace trace₁ last : List Call}
      (holds : ConstraintHolds value varlena x made c trace trace₁)
      (later : ConstraintsHold (made || c.isCheck) rest trace₁ last) : ConstraintsHold made (c :: rest) trace last

def FirstViolated (made : Bool) (constraints : List DomainConstraint) (trace : List Call) (e : Raised) : Prop :=
  ∃ before c after trace₁, constraints = before ++ c :: after ∧
    ConstraintsHold value varlena x made before trace trace₁ ∧
    Violated value typeName varlena x (made || before.any DomainConstraint.isCheck) c trace₁ e

variable {value typeName varlena x}

lemma firstViolated_cons {made : Bool} {c : DomainConstraint} {rest : List DomainConstraint} {trace : List Call}
    {e : Raised} :
    FirstViolated value typeName varlena x made (c :: rest) trace e ↔ Violated value typeName varlena x made c trace e ∨
      ∃ trace₁, ConstraintHolds value varlena x made c trace trace₁ ∧
        FirstViolated value typeName varlena x (made || c.isCheck) rest trace₁ e := by
  constructor
  · rintro ⟨before, c', after, trace₁, split, holds, violated⟩
    cases holds with
    | nil =>
      cases split
      exact Or.inl (by simpa using violated)
    | cons first later =>
      cases split
      refine Or.inr ⟨_, first, _, c', after, trace₁, rfl, later, ?_⟩
      rwa [Bool.or_assoc, ← List.any_cons]
  · rintro (violated | ⟨trace₁, first, before, c', after, trace2, rfl, later, violated⟩)
    · exact ⟨[], c, rest, trace, rfl, .nil, by simpa using violated⟩
    · refine ⟨c :: before, c', after, trace2, rfl, .cons first later, ?_⟩
      rwa [List.any_cons, ← Bool.or_assoc]

end Constraints

/-! ## Coercions -/

section Coercions

variable {w : World} {slots : SlotName → Slot} {setup : Setup} {env : Env} {typeName : String} {varlena : Bool}
  {x : SqlValue}

/-- The value of a CHECK expression for the argument `x`. -/
abbrev checkValue (w : World) (slots : SlotName → Slot) (setup : Setup) (env : Env) (x : SqlValue) (expr : Node) :
    Eval SqlValue :=
  expr.value w slots setup { env with domainval := x }

lemma checkedValue_keeps (keeps : KeepsReadOnly w) (made : Bool) (trace : List Call) :
    checkedValue w varlena x (if made then some x else none) trace =
      .value x (trace ++ readOnlyCalls (varlena && !made) x) := by
  cases made with
  | true => simp [checkedValue, readOnlyCalls, Pure.pure, Eval.pure]
  | false =>
    rw [Bool.not_false, Bool.and_true]
    exact readOnly_keeps keeps varlena x trace

def constraintCheck (value : Node → Eval SqlValue) (typeName : String) (varlena : Bool) (x : SqlValue) (made : Bool) :
    DomainConstraint → Eval Unit
  | .notnull _ => if x.isNone then Eval.raise ("domain " ++ typeName ++ " does not allow null values") else pure ()
  | .check name expr => fun trace =>
    match value expr (trace ++ readOnlyCalls (varlena && !made) x) with
    | .value v trace₁ =>
      if v.any fun d => !datumGetBool d then
        Eval.raise ("value for domain " ++ typeName ++ " violates check constraint \"" ++ name ++ "\"") trace₁
      else .value () trace₁
    | .raised e => .raised e
    | .notBoolean => .notBoolean

section One

variable {value : Node → Eval SqlValue} {made : Bool} {c : DomainConstraint} {trace trace₁ : List Call} {e : Raised}

lemma constraintCheck_value : constraintCheck value typeName varlena x made c trace = .value () trace₁ ↔
    ConstraintHolds value varlena x made c trace trace₁ := by
  constructor
  · intro checked
    cases c with
    | notnull name =>
      cases missing : x with
      | none => simp [constraintCheck, missing, Eval.raise] at checked
      | some d =>
        simp only [constraintCheck, missing, Option.isNone_some, Bool.false_eq_true, if_false] at checked
        cases checked
        exact .notnull nofun
    | check name expr =>
      simp only [constraintCheck] at checked
      split at checked
      · rename_i v trace2 evaluated
        split at checked
        · cases checked
        · rename_i passed
          cases checked
          exact .check evaluated fun d is => by simpa [is] using passed
      · cases checked
      · cases checked
  · rintro (present | ⟨evaluated, notFalse⟩)
    · obtain ⟨d, rfl⟩ := Option.ne_none_iff_exists'.mp present
      rfl
    · rename_i v
      simp only [constraintCheck, evaluated]
      cases v with
      | none => rfl
      | some d => simp [notFalse d rfl]

lemma constraintCheck_raised : constraintCheck value typeName varlena x made c trace = .raised e ↔
    Violated value typeName varlena x made c trace e := by
  constructor
  · intro checked
    cases c with
    | notnull name =>
      cases missing : x with
      | none =>
        simp only [constraintCheck, missing, Option.isNone_none, if_true] at checked
        cases checked
        exact .notnull rfl
      | some d =>
        simp only [constraintCheck, missing, Option.isNone_some, Bool.false_eq_true, if_false] at checked
        cases checked
    | check name expr =>
      simp only [constraintCheck] at checked
      split at checked
      · rename_i v trace2 evaluated
        split at checked
        · rename_i failed
          cases checked
          cases v with
          | none => cases failed
          | some d => exact .check evaluated (by simpa using failed)
        · cases checked
      · rename_i e' evaluated
        cases checked
        exact .raised evaluated
      · cases checked
  · rintro (missing | ⟨evaluated, isFalse⟩ | evaluated)
    · subst missing
      rfl
    · simp [constraintCheck, evaluated, isFalse, Eval.raise]
    · simp [constraintCheck, evaluated]

end One

lemma constraintsCheck_cons (keeps : KeepsReadOnly w) (made : Bool) (c : DomainConstraint)
    (rest : List DomainConstraint) (trace : List Call) :
    constraintsCheck w slots setup (c :: rest) env typeName varlena x (if made then some x else none) trace =
      match constraintCheck (checkValue w slots setup env x) typeName varlena x made c trace with
      | .value () trace₁ =>
        constraintsCheck w slots setup rest env typeName varlena x (if made || c.isCheck then some x else none) trace₁
      | .raised e => .raised e
      | .notBoolean => .notBoolean := by
  cases c with
  | notnull name =>
    rw [constraintsCheck]
    cases x with
    | none => rfl
    | some d => simp [constraintCheck, DomainConstraint.isCheck, Pure.pure, Eval.pure]
  | check name expr =>
    rw [constraintsCheck]
    change Eval.bind (checkedValue w varlena x _) _ trace = _
    simp only [Eval.bind, checkedValue_keeps keeps]
    change Eval.bind (checkValue w slots setup env x expr) _ _ = _
    simp only [Eval.bind, constraintCheck, DomainConstraint.isCheck, Bool.or_true, if_true]
    cases checkValue w slots setup env x expr (trace ++ readOnlyCalls (varlena && !made) x) with
    | value v trace₁ =>
      dsimp only
      split <;> rfl
    | raised e => rfl
    | notBoolean => rfl

/-- **The constraints are checked without an error exactly if they hold.** -/
theorem constraintsCheck_value (keeps : KeepsReadOnly w) : ∀ (constraints : List DomainConstraint) (made : Bool)
    (trace last : List Call),
    constraintsCheck w slots setup constraints env typeName varlena x (if made then some x else none) trace =
        .value () last ↔
      ConstraintsHold (checkValue w slots setup env x) varlena x made constraints trace last
  | [], made, trace, last => by
    rw [constraintsCheck]
    constructor
    · intro eq
      cases eq
      exact .nil
    · rintro ⟨⟩
      rfl
  | c :: rest, made, trace, last => by
    rw [constraintsCheck_cons keeps]
    constructor
    · intro eq
      cases checked : constraintCheck (checkValue w slots setup env x) typeName varlena x made c trace with
      | value _ trace₁ =>
        rw [checked] at eq
        exact .cons (constraintCheck_value.mp checked) ((constraintsCheck_value keeps rest _ trace₁ last).mp eq)
      | raised | notBoolean =>
        rw [checked] at eq
        cases eq
    · rintro (_ | ⟨holds, later⟩)
      rw [constraintCheck_value.mpr holds]
      exact (constraintsCheck_value keeps rest _ _ last).mpr later

/-- **An error is that of the first constraint that is violated.** -/
theorem constraintsCheck_raised (keeps : KeepsReadOnly w) : ∀ (constraints : List DomainConstraint) (made : Bool)
    (trace : List Call) (e : Raised),
    constraintsCheck w slots setup constraints env typeName varlena x (if made then some x else none) trace =
        .raised e ↔
      FirstViolated (checkValue w slots setup env x) typeName varlena x made constraints trace e
  | [], made, trace, e => by
    rw [constraintsCheck]
    refine ⟨nofun, ?_⟩
    rintro ⟨before, c, after, trace₁, split, _⟩
    simp at split
  | c :: rest, made, trace, e => by
    rw [constraintsCheck_cons keeps, firstViolated_cons, ← constraintCheck_raised]
    constructor
    · intro eq
      cases checked : constraintCheck (checkValue w slots setup env x) typeName varlena x made c trace with
      | value _ trace₁ =>
        rw [checked] at eq
        exact Or.inr ⟨trace₁, constraintCheck_value.mp checked,
          (constraintsCheck_raised keeps rest _ trace₁ e).mp eq⟩
      | raised e' =>
        rw [checked] at eq
        exact Or.inl eq
      | notBoolean =>
        rw [checked] at eq
        cases eq
    · rintro (violated | ⟨trace₁, holds, later⟩)
      · rw [violated]
      · rw [constraintCheck_value.mpr holds]
        exact (constraintsCheck_raised keeps rest _ trace₁ e).mpr later

lemma coerceToDomain_value {arg : Node} {constraints : List DomainConstraint} {trace trace₁ : List Call}
    (evaluated : arg.value w slots setup env trace = .value x trace₁) :
    (Node.coerceToDomain typeName varlena arg constraints).value w slots setup env trace =
      match constraintsCheck w slots setup constraints env typeName varlena x none trace₁ with
      | .value _ last => .value x last
      | .raised e => .raised e
      | .notBoolean => .notBoolean := by
  rw [Node.value]
  change Eval.bind (arg.value w slots setup env) _ trace = _
  simp only [Eval.bind, evaluated]
  change Eval.bind (constraintsCheck w slots setup constraints env typeName varlena x none) _ trace₁ = _
  simp only [Eval.bind]
  cases constraintsCheck w slots setup constraints env typeName varlena x none trace₁ <;> rfl

lemma coerceToDomain_ends (typeName : String) (varlena : Bool) (constraints : List DomainConstraint)
    (keeps : KeepsReadOnly w) {arg : Node} {trace trace₁ : List Call} (evaluated : arg.value w slots setup env trace = .value x trace₁) :
    (∀ v last, (Node.coerceToDomain typeName varlena arg constraints).value w slots setup env trace = .value v last ↔
      v = x ∧ ConstraintsHold (checkValue w slots setup env x) varlena x false constraints trace₁ last) ∧
    ∀ e, (Node.coerceToDomain typeName varlena arg constraints).value w slots setup env trace = .raised e ↔
      FirstViolated (checkValue w slots setup env x) typeName varlena x false constraints trace₁ e := by
  have holds (last : List Call) :
      constraintsCheck w slots setup constraints env typeName varlena x none trace₁ = .value () last ↔
        ConstraintsHold (checkValue w slots setup env x) varlena x false constraints trace₁ last :=
    constraintsCheck_value keeps constraints false trace₁ last
  have violated (e : Raised) :
      constraintsCheck w slots setup constraints env typeName varlena x none trace₁ = .raised e ↔
        FirstViolated (checkValue w slots setup env x) typeName varlena x false constraints trace₁ e :=
    constraintsCheck_raised keeps constraints false trace₁ e
  rw [coerceToDomain_value evaluated]
  refine ⟨fun v last => ?_, fun e => ?_⟩
  · rw [← holds]
    cases constraintsCheck w slots setup constraints env typeName varlena x none trace₁ with
    | value _ last' => simp [eq_comm]
    | raised e => simp
    | notBoolean => simp
  · rw [← violated]
    cases constraintsCheck w slots setup constraints env typeName varlena x none trace₁ <;> simp

/-- **Coercions to a domain.** Let `x` be the argument of a coercion. Its value is `x` if all
constraints hold, and otherwise the first one that does not raises its error; this is said
of a coercion at any depth (`env` is given by what is around it) and of the run of its steps.
A CHECK is evaluated with CoerceToDomainValue equal to `x`. -/
theorem coerceToDomain_constraints (w : World) (slots : SlotName → Slot) (setup : Setup) (typeName : String)
    (varlena : Bool) (arg : Node) (constraints : List DomainConstraint) (keeps : KeepsReadOnly w)
    (proper : (Node.coerceToDomain typeName varlena arg constraints).proper = true) :
    (∀ env x trace trace₁, arg.value w slots setup env trace = .value x trace₁ → (∀ v last,
        (Node.coerceToDomain typeName varlena arg constraints).value w slots setup env trace = .value v last ↔
          v = x ∧ ConstraintsHold (checkValue w slots setup env x) varlena x false constraints trace₁ last) ∧
      ∀ e, (Node.coerceToDomain typeName varlena arg constraints).value w slots setup env trace = .raised e ↔
        FirstViolated (checkValue w slots setup env x) typeName varlena x false constraints trace₁ e) ∧
    ∀ (m : Machine) (x : SqlValue) (trace trace₁ : List Call),
      let st := execInitExpr setup (.coerceToDomain typeName varlena arg constraints)
      (Source.expr (.coerceToDomain typeName varlena arg constraints)).deform w setup m.slots m.trace =
        .value slots trace →
      Loaded st.stores m → arg.value w slots setup (.top w) trace = .value x trace₁ →
      (Node.coerceToDomain typeName varlena arg constraints).value w slots setup (.top w) trace ≠ .notBoolean →
      (∀ m', execInterpExpr w st.steps m = .finished m' → (m'.mem .result).sql = x) ∧
      (∀ last, (∃ m', execInterpExpr w st.steps m = .finished m' ∧ m'.trace = last) ↔
        ConstraintsHold (checkValue w slots setup (.top w) x) varlena x false constraints trace₁ last) ∧
      ∀ e, execInterpExpr w st.steps m = .failed e ↔
        FirstViolated (checkValue w slots setup (.top w) x) typeName varlena x false constraints trace₁ e := by
  refine ⟨fun env x trace trace₁ evaluated => coerceToDomain_ends typeName varlena constraints keeps evaluated,
    ?_⟩
  intro m x trace trace₁ st deformed loaded evaluated booleans
  obtain ⟨W, outcome⟩ := execInitExpr_outcome proper deformed loaded
  obtain ⟨value, raised⟩ := coerceToDomain_ends typeName varlena constraints keeps evaluated
  refine ⟨fun m' finished => ?_, fun last => ?_, fun e => ?_⟩
  · rw [finished] at outcome
    obtain ⟨v, answered, _, held⟩ := OutcomeOf.finished outcome booleans
    rw [held]
    exact ((value v m'.trace).mp answered).1
  · rw [outcome.finished_iff booleans]
    simp only [value, exists_eq_left]
  · rw [outcome.failed_iff booleans, raised]

end Coercions

/-- A column is coerced to a varlena domain that is NOT NULL and has the CHECK that its value,
coerced to another domain, is equal to it. The other domain has the CHECK that its value is 7. -/
def nestedDomains : Node :=
  let seven : Node := .const { value := 7, isnull := false }
  let inner : Node := .coerceToDomain "inner" false .coerceToDomainValue
    [.check "is_seven" (.opExpr int4eq [.coerceToDomainValue, seven])]
  .coerceToDomain "outer" true (.var { varno := .scan, varattno := 1, vartype := 23 })
    [.notnull "present", .check "same" (.opExpr int4eq [inner, .coerceToDomainValue])]

/-- For 8 the error is that of the inner domain. -/
theorem nestedDomains_eight : execInterpExpr keepingWorld (execInitExpr sampleSetup nestedDomains).steps
        (columnMachine { value := 8, isnull := false }) =
      .failed
        { message := "value for domain inner violates check constraint \"is_seven\""
          trace := [.makeReadOnly 8, .function int4eq [some 8, some 7]] } := by
  have constrained := coerceToDomain_constraints keepingWorld (columnMachine { value := 8, isnull := false }).slots
    sampleSetup "outer" true _ _ keepingWorld_keeps (by decide : nestedDomains.proper = true)
  obtain ⟨_, _, fails⟩ := constrained.2 (columnMachine { value := 8, isnull := false }) (some 8) [] [] rfl (by
      have sevens : ∀ p ∈ (execInitExpr sampleSetup nestedDomains).stores, p.2.sql = some 7 := by decide
      exact fun p member => (sevens p member).symm)
    rfl nofun
  exact (fails _).mpr ⟨[.notnull "present"], _, [], [], rfl, .cons (.notnull nofun) .nil, .raised rfl⟩

end Hex.Compiler
