/-
# Compiler.Qual — quals and check constraints

A list of boolean expressions is compiled in two ways. `ExecInitQual` puts a step behind each
expression that leaves the program with false unless the expression is true; a WHERE clause
is evaluated that way, by `ExecQual`. `ExecInitCheck` compiles the AND of the expressions, and
`ExecCheck` takes NULL for true; that is the rule for constraints.

Both go through the list from left to right until an expression decides (`passAll`), and
**`execQual_execCheck`** says which one that is.
-/
import Hex.Compiler.ProgramRun

namespace Hex.Compiler

open Theory.BlockCode

/-! ## The callers -/

/-- The boolean that a caller makes of the result of a program. -/
def boolOutcome (ret : NullableDatum → Bool) : Outcome Machine Raised → Option (Answer Bool)
  | .finished m => some (.value (ret (m.mem .result)) m.trace)
  | .failed e => some (.raised e)
  | .stuck => none
  | .running => none

def execQual (w : World) (state : Option ExprState) (m : Machine) : Option (Answer Bool) :=
  match state with
  | none => some (.value true m.trace)
  | some st => boolOutcome (fun ret => datumGetBool ret.value) (execInterpExpr w st.steps m)

def execCheck (w : World) (state : Option ExprState) (m : Machine) : Option (Answer Bool) :=
  match state with
  | none => some (.value true m.trace)
  | some st => boolOutcome (fun ret => ret.isnull || datumGetBool ret.value) (execInterpExpr w st.steps m)

/-! ## Lists of conditions -/

section Conditions

variable {α : Type} (value : α → Eval SqlValue) (pass : SqlValue → Bool)

/-- Evaluate conditions from left to right, until one does not pass. -/
def passAll : List α → Eval Bool
  | [] => pure true
  | e :: rest => value e >>= fun v => if pass v then passAll rest else pure false

/-- The conditions are evaluated one after the other, and each of them passes. -/
inductive Passes : List α → List Call → List Call → Prop where
  | nil {trace : List Call} : Passes [] trace trace
  | cons {e : α} {rest : List α} {trace trace₁ trace2 : List Call} {v : SqlValue}
      (evaluated : value e trace = .value v trace₁) (passed : pass v = true) (later : Passes rest trace₁ trace2) :
      Passes (e :: rest) trace trace2

variable {value pass}

lemma passAll_cons {e : α} {rest : List α} {trace : List Call} :
    passAll value pass (e :: rest) trace = match value e trace with
      | .value v trace₁ => if pass v then passAll value pass rest trace₁ else .value false trace₁
      | .raised err => .raised err
      | .notBoolean => .notBoolean := by
  change Eval.bind (value e) _ trace = _
  simp only [Eval.bind]
  cases value e trace with
  | value v trace₁ =>
    dsimp only
    split <;> rfl
  | raised err => rfl
  | notBoolean => rfl

lemma passAll_true {conditions : List α} : ∀ {trace last : List Call},
    passAll value pass conditions trace = .value true last ↔ Passes value pass conditions trace last := by
  induction conditions with
  | nil =>
    intro trace last
    constructor
    · intro eq
      cases eq
      exact .nil
    · rintro ⟨⟩
      rfl
  | cons e rest ih =>
    intro trace last
    rw [passAll_cons]
    constructor
    · intro eq
      cases evaluated : value e trace with
      | value v trace₁ =>
        simp only [evaluated] at eq
        cases passed : pass v with
        | true =>
          rw [passed] at eq
          exact .cons evaluated passed (ih.mp eq)
        | false =>
          rw [passed] at eq
          cases eq
      | raised | notBoolean =>
        rw [evaluated] at eq
        cases eq
    · rintro (_ | ⟨evaluated, passed, later⟩)
      simp only [evaluated, passed, if_true]
      exact ih.mpr later

lemma passAll_stops {conditions : List α} (answer : Answer Bool) (ends : answer ≠ .notBoolean)
    (stopped : ∀ last, answer ≠ .value true last) : ∀ {trace : List Call},
    passAll value pass conditions trace = answer ↔
      ∃ before e after trace₁, conditions = before ++ e :: after ∧ Passes value pass before trace trace₁ ∧
        ((∃ v last, value e trace₁ = .value v last ∧ pass v = false ∧ answer = .value false last) ∨
          ∃ err, value e trace₁ = .raised err ∧ answer = .raised err) := by
  induction conditions with
  | nil =>
    intro trace
    constructor
    · intro eq
      exact absurd eq.symm (stopped trace)
    · rintro ⟨before, e, after, _, eq, _⟩
      simp at eq
  | cons e rest ih =>
    intro trace
    rw [passAll_cons]
    constructor
    · intro eq
      cases evaluated : value e trace with
      | value v trace₁ =>
        simp only [evaluated] at eq
        cases passed : pass v with
        | true =>
          rw [passed] at eq
          obtain ⟨before, e', after, trace2, split, passes, stops⟩ := ih.mp eq
          exact ⟨e :: before, e', after, trace2, by rw [split]; rfl, .cons evaluated passed passes, stops⟩
        | false =>
          rw [passed] at eq
          exact ⟨[], e, rest, trace, rfl, .nil, Or.inl ⟨v, trace₁, evaluated, passed, eq.symm⟩⟩
      | raised err =>
        rw [evaluated] at eq
        exact ⟨[], e, rest, trace, rfl, .nil, Or.inr ⟨err, evaluated, eq.symm⟩⟩
      | notBoolean =>
        rw [evaluated] at eq
        exact absurd eq.symm ends
    · rintro ⟨before, e', after, trace₁, split, passes, stops⟩
      cases passes with
      | nil =>
        cases split
        rcases stops with ⟨v, last, evaluated, passed, rfl⟩ | ⟨err, evaluated, rfl⟩
        · simp [evaluated, passed]
        · rw [evaluated]
      | cons evaluated passed later =>
        cases split
        simp only [evaluated, passed, if_true]
        exact ih.mpr ⟨_, e', after, trace₁, rfl, later, stops⟩

lemma passAll_false {conditions : List α} {trace last : List Call} :
    passAll value pass conditions trace = .value false last ↔
      ∃ before e after trace₁ v, conditions = before ++ e :: after ∧ Passes value pass before trace trace₁ ∧
        value e trace₁ = .value v last ∧ pass v = false := by
  refine Iff.trans (passAll_stops (.value false last) nofun nofun) ?_
  constructor
  · rintro ⟨before, e, after, trace₁, split, passes, ⟨v, last', evaluated, failed, same⟩ | ⟨err, _, same⟩⟩
    · cases same
      exact ⟨before, e, after, trace₁, v, split, passes, evaluated, failed⟩
    · cases same
  · rintro ⟨before, e, after, trace₁, v, split, passes, evaluated, failed⟩
    exact ⟨before, e, after, trace₁, split, passes, Or.inl ⟨v, last, evaluated, failed, rfl⟩⟩

end Conditions

/-! ## The program of a qual -/

/-- The result cell holds a boolean that is not NULL. -/
def HoldsBool (b : Bool) (m : Machine) : Prop :=
  (m.mem .result).isnull = false ∧ datumGetBool (m.mem .result).value = b

section Qual

variable {w : World} {setup : Setup}

/-- The value of an expression of a whole program. -/
abbrev Node.topValue (w : World) (slots : SlotName → Slot) (setup : Setup) (e : Node) : Eval SqlValue :=
  e.value w slots setup (.top w)

lemma interpStep_qual {m : Machine} {v : SqlValue} (value : (m.mem .result).sql = v) :
    if v.any datumGetBool then interpStep w (.qual .result) m = .next m ∧ HoldsBool true m
    else interpStep w (.qual .result) m = .jump 0 (m.set .result { value := boolGetDatum false, isnull := false }) := by
  have step : interpStep w (.qual .result) m = if (m.mem .result).isnull || !datumGetBool (m.mem .result).value then
        .jump 0 (m.set .result { value := boolGetDatum false, isnull := false })
      else .next m := rfl
  rw [step]
  cases v with
  | none => simp [NullableDatum.sql_eq_none.mp value]
  | some d =>
    obtain ⟨null, rfl⟩ := NullableDatum.sql_eq_some.mp value
    cases truth : datumGetBool (m.mem .result).value <;> simp [null, truth, HoldsBool]

lemma computes_condition {W : Cell → Prop} {g : Gen 0} {rest : Gen 1} {h : Nat} {m : Machine} {x : Eval SqlValue} {later : Eval Bool}
    (first : Computes W m (x m.trace) Through (fun v m' => (m'.mem .result).sql = v)
      (eval (interpStep w) (g.piece h).code m))
    (second : ∀ m1, m1.slots = m.slots → eval (interpStep w) (g.piece h).code m = .next m1 → HoldsBool true m1 →
      Computes (fun _ => True) m1 (later m1.trace) Closes HoldsBool
        (eval (interpStep w) (rest.piece (g.piece h).heap).code m1)) :
    Computes (fun _ => True) m
      ((x >>= fun v => if v.any datumGetBool then later else pure false) m.trace) Closes HoldsBool
      (eval (interpStep w) (((Gen.inner g).seq <| (Gen.jump (.qual .result) [0] Gen.first_inside).seq rest).piece h).code
        m) := by
  refine Computes.seq (LeadsTo.through first) (fun _ _ => trivial) ?_
  rintro v m1 frame ⟨held, ran⟩
  have step := interpStep_qual (w := w) held
  split at step
  · rename_i passes
    rw [if_pos passes]
    exact Computes.before (eval_jump_next step.1) (Frame.refl m1) (second m1 frame.slots ran step.2)
  · rename_i fails
    rw [if_neg fails]
    refine LeadsTo.leaves (eval_jump_exit step rfl) (Computes.last (Or.inr rfl) rfl (Frame.set trivial _) ?_)
    simp [HoldsBool]

lemma computes_qualArgs {K : List (Cell × NullableDatum)} : ∀ (conditions : List Node) (h : Nat) (m : Machine),
    (∀ e ∈ conditions, e.proper = true) → Loaded K m →
    (genQualArgs setup conditions).Relies K h → (conditions = [] → HoldsBool true m) →
    Computes (fun _ => True) m
      (passAll (Node.topValue w m.slots setup) (·.any datumGetBool) conditions m.trace) Closes HoldsBool
      (eval (interpStep w) ((genQualArgs setup conditions).piece h).code m)
  | [], _, _, _, _, _, held => Computes.pure (Or.inl rfl) (held rfl)
  | e :: rest, h, m, proper, loaded, relies, _ => by
    simp only [genQualArgs, Gen.relies_seq, Gen.relies_inner] at relies
    refine computes_condition (e.computes_top (proper e List.mem_cons_self) loaded relies.1) fun m1 slots ran held => ?_
    have later := computes_qualArgs rest _ m1 (fun e' member => proper e' (List.mem_cons_of_mem e member))
      (relies.1.loaded loaded ran) relies.2.2 fun _ => held
    rwa [slots] at later

end Qual

/-! ## What the callers return -/

/-- An expression of type boolean: it is NULL, false or true, and so are the parts of it that are
used as booleans. -/
def IsBoolean (x : Eval SqlValue) : Prop :=
  ∀ trace, match x trace with
    | .value v _ => ∃ b, v = boolSql b
    | .raised _ => True
    | .notBoolean => False

lemma IsBoolean.value {x : Eval SqlValue} {v : SqlValue} {trace last : List Call} (boolean : IsBoolean x)
    (evaluated : x trace = .value v last) : ∃ b, v = boolSql b := by
  have known := boolean trace
  rw [evaluated] at known
  exact known

lemma boolOutcome_of {α : Type} {F : Machine → Machine → Prop} {m : Machine} {x : Eval α} {trace : List Call}
    {post : α → Machine → Prop} {out : Outcome Machine Raised} (ret : NullableDatum → Bool) (read : α → Bool)
    (outcome : OutcomeOf F m (x trace) post out) (returns : ∀ a m', post a m' → ret (m'.mem .result) = read a)
    (booleans : (x >>= fun a => pure (read a)) trace ≠ .notBoolean) :
    boolOutcome ret out = some ((x >>= fun a => pure (read a)) trace) := by
  change Eval.bind x (fun a => Eval.pure (read a)) trace ≠ _ at booleans
  change _ = some (Eval.bind x (fun a => Eval.pure (read a)) trace)
  simp only [Eval.bind] at booleans ⊢
  cases answered : x trace with
  | notBoolean =>
    rw [answered] at booleans
    exact absurd rfl booleans
  | raised err =>
    rw [answered] at outcome
    have failed : out = .failed err := outcome
    rw [failed]
    rfl
  | value a last =>
    rw [answered] at outcome
    obtain ⟨m', rfl, rfl, _, held⟩ := outcome
    simp only [boolOutcome, returns a m' held]
    rfl

lemma IsBoolean.ends {x : Eval SqlValue} (boolean : IsBoolean x) (trace : List Call) : x trace ≠ .notBoolean := by
  intro eq
  have known := boolean trace
  rw [eq] at known
  exact known

lemma passAll_ends {α : Type} {value : α → Eval SqlValue} {pass : SqlValue → Bool} :
    ∀ {conditions : List α}, (∀ e ∈ conditions, ∀ trace, value e trace ≠ .notBoolean) → ∀ trace : List Call,
      passAll value pass conditions trace ≠ .notBoolean
  | [], _, _ => nofun
  | e :: rest, ends, trace => by
    rw [passAll_cons]
    cases evaluated : value e trace with
    | value v trace₁ =>
      dsimp only
      split
      · exact passAll_ends (fun e' member => ends e' (List.mem_cons_of_mem e member)) trace₁
      · exact nofun
    | raised err => exact nofun
    | notBoolean => exact absurd evaluated (ends e List.mem_cons_self trace)

/-- On booleans, tests that agree on booleans lead to the same. -/
lemma passAll_congr {α : Type} {value : α → Eval SqlValue} {pass pass' : SqlValue → Bool}
    (same : ∀ b, pass (boolSql b) = pass' (boolSql b)) : ∀ {conditions : List α},
    (∀ e ∈ conditions, IsBoolean (value e)) → ∀ trace : List Call,
      passAll value pass conditions trace = passAll value pass' conditions trace
  | [], _, _ => rfl
  | e :: rest, booleans, trace => by
    have boolean := booleans e List.mem_cons_self trace
    rw [passAll_cons, passAll_cons]
    cases evaluated : value e trace with
    | value v trace₁ =>
      rw [evaluated] at boolean
      obtain ⟨b, rfl⟩ := boolean
      dsimp only
      rw [same, passAll_congr same (fun e' member => booleans e' (List.mem_cons_of_mem e member)) trace₁]
    | raised | notBoolean => rfl

section Callers

variable {w : World} {setup : Setup} {conditions : List Node} {m : Machine} {slots : SlotName → Slot}
  {trace : List Call}

lemma deform_nil (deformed : (Source.qual []).deform w setup m.slots m.trace = .value slots trace) :
    trace = m.trace := by
  have unread (slot : SlotName) : (Source.qual []).last slot = 0 := by cases slot <;> rfl
  have nothing : (Source.qual []).deform w setup m.slots m.trace = .value m.slots m.trace := by
    simp only [Source.deform, unread, deformSlot_zero, Eval.pure_bind]
    rfl
  rw [nothing] at deformed
  cases deformed
  rfl

/-- The program of a qual ends with a boolean that is not NULL. -/
lemma execInitQual_outcome {st : ExprState} (proper : ∀ e ∈ conditions, e.proper = true)
    (deformed : (Source.qual conditions).deform w setup m.slots m.trace = .value slots trace)
    (built : execInitQual setup conditions = some st) (loaded : Loaded st.stores m) :
    ∃ W, OutcomeOf (Frame W) (m.deformed slots trace)
      (passAll (Node.topValue w slots setup) (·.any datumGetBool) conditions trace) HoldsBool
      (execInterpExpr w st.steps m) := by
  have source : (Source.qual conditions).build setup = some st := built
  have nonempty : conditions ≠ [] := by
    rintro rfl
    cases built
  have body := computes_qualArgs (w := w) conditions 0 (m.deformed slots trace) proper
    (Source.loaded_body source loaded slots trace) ((Source.qual conditions).body_relies setup 0)
    fun empty => absurd empty nonempty
  exact ⟨_, execInterpExpr_leadsTo source deformed (LeadsTo.block body)⟩

lemma execQual_eq (proper : ∀ e ∈ conditions, e.proper = true)
    (booleans : ∀ e ∈ conditions, IsBoolean (e.topValue w slots setup))
    (deformed : (Source.qual conditions).deform w setup m.slots m.trace = .value slots trace)
    (loaded : ∀ st, execInitQual setup conditions = some st → Loaded st.stores m) :
    execQual w (execInitQual setup conditions) m =
      some (passAll (Node.topValue w slots setup) (·.any datumGetBool) conditions trace) := by
  cases built : execInitQual setup conditions with
  | none =>
    cases conditions with
    | nil => rw [deform_nil deformed]; rfl
    | cons e rest => cases built
  | some st =>
    obtain ⟨W, outcome⟩ := execInitQual_outcome proper deformed built (loaded st built)
    have returned := boolOutcome_of (fun ret => datumGetBool ret.value) (fun b => b) outcome (fun b m' held => held.2)
    rw [Eval.bind_pure] at returned
    exact returned (passAll_ends (fun e member => (booleans e member).ends) trace)

lemma truth_boolSql (b : Option Bool) : Eval.truth (boolSql b) = pure b := by
  rcases b with _ | _ | _ <;> rfl

lemma listJunction_passAll {env : Env} : ∀ {conditions : List Node} {acc : Option Bool}, acc ≠ some false →
    (∀ e ∈ conditions, IsBoolean (e.value w slots setup env)) →
    (listJunction w slots setup conditions .and acc env >>= fun v => pure (v.all datumGetBool)) =
      passAll (fun e => e.value w slots setup env) (·.all datumGetBool) conditions
  | [], acc, open_, _ => by
    rcases acc with _ | _ | _
    · rfl
    · exact absurd rfl open_
    · rfl
  | e :: rest, acc, open_, booleans => by
    rw [listJunction, Eval.bind_assoc, passAll]
    have rest_ {acc : Option Bool} (open_ : acc ≠ some false) := listJunction_passAll open_
      fun e' member => booleans e' (List.mem_cons_of_mem e member)
    -- after the value of `e` both go on in the same way
    have same (b : Option Bool) : ((Eval.truth (boolSql b) >>= fun b =>
          if AndOr.and.connect acc b = some AndOr.and.dominant then pure (boolSql (AndOr.and.connect acc b))
          else listJunction w slots setup rest .and (AndOr.and.connect acc b) env) >>=
          fun v => pure (v.all datumGetBool)) =
        if (boolSql b).all datumGetBool then
          passAll (fun e => e.value w slots setup env) (·.all datumGetBool) rest
        else pure false := by
      rw [truth_boolSql, Eval.pure_bind]
      rcases b with _ | _ | _ <;> rcases acc with _ | _ | _ <;>
        first | exact absurd rfl open_ | rfl | exact rest_ (by decide)
    funext trace
    have boolean := booleans e List.mem_cons_self trace
    change Eval.bind _ _ trace = Eval.bind _ _ trace
    simp only [Eval.bind]
    cases evaluated : e.value w slots setup env trace with
    | raised | notBoolean => rfl
    | value v trace₁ =>
      rw [evaluated] at boolean
      obtain ⟨b, rfl⟩ := boolean
      exact congrFun (same b) trace₁

lemma makeAndsExplicit_passAll {env : Env} (nonempty : conditions ≠ [])
    (booleans : ∀ e ∈ conditions, IsBoolean (e.value w slots setup env)) :
    ((makeAndsExplicit conditions).value w slots setup env >>= fun v => pure (v.all datumGetBool)) =
      passAll (fun e => e.value w slots setup env) (·.all datumGetBool) conditions := by
  match conditions, nonempty with
  | [e], _ =>
    rw [passAll, passAll]
    congr 1
    funext v
    cases v.all datumGetBool <;> rfl
  | first :: second :: rest, _ => exact listJunction_passAll (by decide) booleans

lemma makeAndsExplicit_proper (nonempty : conditions ≠ []) (proper : ∀ e ∈ conditions, e.proper = true) :
    (makeAndsExplicit conditions).proper = true := by
  have list : ∀ {conditions : List Node}, (∀ e ∈ conditions, e.proper = true) → listEvery Node.fits conditions = true := by
    intro conditions proper
    induction conditions with
    | nil => rfl
    | cons e rest ih =>
      have head : e.every Node.fits = true := proper e List.mem_cons_self
      simp [listEvery, head, ih fun e' member => proper e' (List.mem_cons_of_mem e member)]
  match conditions, nonempty with
  | [e], _ => exact proper e List.mem_cons_self
  | first :: second :: rest, _ =>
    simp [makeAndsExplicit, Node.proper, Node.every, Node.fits, BoolOp.asserts, list proper]

lemma execCheck_eq (proper : ∀ e ∈ conditions, e.proper = true)
    (booleans : ∀ e ∈ conditions, IsBoolean (e.topValue w slots setup))
    (deformed : (Source.qual conditions).deform w setup m.slots m.trace = .value slots trace)
    (loaded : ∀ st, execInitCheck setup conditions = some st → Loaded st.stores m) :
    execCheck w (execInitCheck setup conditions) m =
      some (passAll (Node.topValue w slots setup) (·.all datumGetBool) conditions trace) := by
  cases built : execInitCheck setup conditions with
  | none =>
    cases conditions with
    | nil => rw [deform_nil deformed]; rfl
    | cons e rest => cases built
  | some st =>
    have source : (Source.check conditions).build setup = some st := built
    have nonempty : conditions ≠ [] := by
      rintro rfl
      cases built
    have deformed : (Source.check conditions).deform w setup m.slots m.trace = .value slots trace := deformed
    have body : Computes _ _ ((makeAndsExplicit conditions).value w slots setup (.top w) trace) Through
        (fun v m' => (m'.mem .result).sql = v) _ :=
      (makeAndsExplicit conditions).computes_top (makeAndsExplicit_proper nonempty proper)
        (Source.loaded_body source (loaded st built) slots trace) ((Source.check conditions).body_relies setup 0)
    have returned := boolOutcome_of (fun ret => ret.isnull || datumGetBool ret.value) (fun v => v.all datumGetBool)
      (execInterpExpr_leadsTo source deformed body) fun v m' held => by
        rw [← held]
        cases null : (m'.mem .result).isnull <;> simp [NullableDatum.sql, null]
    rw [makeAndsExplicit_passAll nonempty booleans] at returned
    exact returned (passAll_ends (fun e member => (booleans e member).ends) trace)

/-- **Quals and checks.** The conditions are boolean expressions, and `slots` are the slots as
the program has deformed them.

* `ExecQual` is true when all conditions are true, one after the other; it is false when one
  of them is false or NULL and those before it are true, and then nothing behind it is
  evaluated. The program never returns NULL.
* `ExecCheck` is true when no condition is false; it is false when one of them is false and
  those before it are true or NULL.
* Without conditions both are true. -/
theorem execQual_execCheck (w : World) (setup : Setup) (conditions : List Node) (slots : SlotName → Slot)
    (trace : List Call) (proper : ∀ e ∈ conditions, e.proper = true)
    (booleans : ∀ e ∈ conditions, IsBoolean (e.topValue w slots setup)) :
    (∀ m : Machine, (Source.qual conditions).deform w setup m.slots m.trace = .value slots trace →
      (∀ st, execInitQual setup conditions = some st → Loaded st.stores m) →
      (∀ st m', execInitQual setup conditions = some st → execInterpExpr w st.steps m = .finished m' →
        (m'.mem .result).isnull = false) ∧
      (∀ last, execQual w (execInitQual setup conditions) m = some (.value true last) ↔
        Passes (Node.topValue w slots setup) (· == boolSql (some true)) conditions trace last) ∧
      (∀ last, execQual w (execInitQual setup conditions) m = some (.value false last) ↔
        ∃ before e after trace₁ v, conditions = before ++ e :: after ∧
          Passes (Node.topValue w slots setup) (· == boolSql (some true)) before trace trace₁ ∧
          e.topValue w slots setup trace₁ = .value v last ∧ (v = none ∨ v = boolSql (some false)))) ∧
    (∀ m : Machine, (Source.check conditions).deform w setup m.slots m.trace = .value slots trace →
      (∀ st, execInitCheck setup conditions = some st → Loaded st.stores m) →
      (∀ last, execCheck w (execInitCheck setup conditions) m = some (.value true last) ↔
        Passes (Node.topValue w slots setup) (· != boolSql (some false)) conditions trace last) ∧
      (∀ last, execCheck w (execInitCheck setup conditions) m = some (.value false last) ↔
        ∃ before e after trace₁, conditions = before ++ e :: after ∧
          Passes (Node.topValue w slots setup) (· != boolSql (some false)) before trace trace₁ ∧
          e.topValue w slots setup trace₁ = .value (boolSql (some false)) last)) ∧
    ∀ m : Machine, execQual w (execInitQual setup []) m = some (.value true m.trace) ∧
      execCheck w (execInitCheck setup []) m = some (.value true m.trace) := by
  refine ⟨fun m deformed loaded => ?_, fun m deformed loaded => ?_, fun m => ⟨rfl, rfl⟩⟩
  · have isTrue : ∀ b, (boolSql b).any datumGetBool = (boolSql b == boolSql (some true)) := by
      rintro (_ | _ | _) <;> rfl
    have same : passAll (Node.topValue w slots setup) (·.any datumGetBool) conditions trace =
        passAll (Node.topValue w slots setup) (· == boolSql (some true)) conditions trace :=
      passAll_congr isTrue booleans trace
    rw [execQual_eq proper booleans deformed loaded, same]
    refine ⟨fun st m' built finished => ?_, fun last => ?_, fun last => ?_⟩
    · obtain ⟨W, outcome⟩ := execInitQual_outcome proper deformed built (loaded st built)
      rw [finished] at outcome
      obtain ⟨b, _, _, held⟩ := OutcomeOf.finished outcome (passAll_ends (fun e member => (booleans e member).ends) trace)
      exact held.1
    · rw [Option.some.injEq, passAll_true]
    · rw [Option.some.injEq, passAll_false]
      refine exists_congr fun before => exists_congr fun e => exists_congr fun after => exists_congr fun trace₁ =>
        exists_congr fun v => ?_
      refine and_congr_right fun split => and_congr_right fun _ => and_congr_right fun evaluated => ?_
      obtain ⟨b, rfl⟩ := (booleans e (by simp [split])).value evaluated
      rcases b with _ | _ | _ <;> decide
  · have notFalse : ∀ b, (boolSql b).all datumGetBool = (boolSql b != boolSql (some false)) := by
      rintro (_ | _ | _) <;> rfl
    have same : passAll (Node.topValue w slots setup) (·.all datumGetBool) conditions trace =
        passAll (Node.topValue w slots setup) (· != boolSql (some false)) conditions trace :=
      passAll_congr notFalse booleans trace
    rw [execCheck_eq proper booleans deformed loaded, same]
    refine ⟨fun last => ?_, fun last => ?_⟩
    · rw [Option.some.injEq, passAll_true]
    · rw [Option.some.injEq, passAll_false]
      simp

end Callers

/-- `x IS NULL` for a column `x`, and then NULL. -/
def nullConditions : List Node :=
  [.nullTest true false (.var { varno := .scan, varattno := 1, vartype := 23 }), .const nullDatum]

/-- Where `x` is NULL the row is left out by the qual and let through by the check. -/
theorem nullConditions_outcomes :
    execQual silentWorld (execInitQual sampleSetup nullConditions) (columnMachine nullDatum) = some (.value false []) ∧
    execCheck silentWorld (execInitCheck sampleSetup nullConditions) (columnMachine nullDatum) =
      some (.value true []) := by
  obtain ⟨qual, check, -⟩ := execQual_execCheck silentWorld sampleSetup nullConditions
    (columnMachine nullDatum).slots [] (by decide) (fun e member => by
      rcases List.mem_pair.mp member with rfl | rfl
      · exact fun trace => ⟨some true, rfl⟩
      · exact fun trace => ⟨none, rfl⟩)
  obtain ⟨-, -, isFalse⟩ := qual (columnMachine nullDatum) rfl fun st built => by cases built; exact nofun
  obtain ⟨isTrue, -⟩ := check (columnMachine nullDatum) rfl fun st built => by cases built; exact nofun
  refine ⟨(isFalse []).mpr ⟨[_], _, [], [], none, rfl, .cons rfl rfl .nil, rfl, Or.inl rfl⟩, (isTrue []).mpr ?_⟩
  exact .cons rfl rfl (.cons rfl rfl .nil)

end Hex.Compiler
