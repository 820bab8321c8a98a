/-
# Compiler.Grouping — rows of one group

`ExecBuildGroupingEqual` compiles the comparison of two rows in their key columns: from the
last column to the first, one `EEOP_NOT_DISTINCT` step and one `EEOP_QUAL` step for each. Two
NULLs are taken for equal there, a NULL and a value are not, and the equality function of
the column is called for two values only.

`KeysAgree` says that without regard to steps, and **`execBuildGroupingEqual_keysAgree`** that
the program computes it. Where the equality functions are equivalences, so is the relation
on rows.
-/
import Hex.Compiler.Qual

namespace Hex.Compiler

open Theory.BlockCode

/-! ## One column -/

/-- `x IS NOT DISTINCT FROM y`, with the equality function. -/
def isNotDistinct (w : World) (f : Func) : SqlValue → SqlValue → Eval SqlValue
  | none, none => pure (boolSql (some true))
  | some x, some y => Eval.function w f [some x, some y]
  | _, _ => pure (boolSql (some false))

def keyValue (col : GroupColumn) (row : Nat → NullableDatum) : SqlValue := (row (col.keyColIdx - 1)).sql

/-- The two rows are not distinct in a column. -/
def columnEqual (w : World) (left right : Nat → NullableDatum) (col : GroupColumn) : Eval SqlValue :=
  isNotDistinct w col.eqfunction (keyValue col left) (keyValue col right)

/-- Two values that are both NULL, or for which the equality function returns true. -/
inductive ValuesAgree (w : World) (f : Func) : SqlValue → SqlValue → List Call → List Call → Prop where
  | nulls {trace : List Call} : ValuesAgree w f none none trace trace
  | values {x y : Datum} {trace : List Call} {ds : List NullableDatum}
      (called : w.answer trace (.function f [some x, some y]) = .ok ds) (notNull : (returned ds).isnull = false)
      (isTrue : datumGetBool (returned ds).value = true) :
      ValuesAgree w f (some x) (some y) trace (trace ++ [.function f [some x, some y]])

/-- Two rows agree in key columns, which are compared one after the other. -/
inductive KeysAgree (w : World) (left right : Nat → NullableDatum) : List GroupColumn → List Call → List Call → Prop where
  | nil {trace : List Call} : KeysAgree w left right [] trace trace
  | cons {col : GroupColumn} {rest : List GroupColumn} {trace trace1 trace2 : List Call}
      (agree : ValuesAgree w col.eqfunction (keyValue col left) (keyValue col right) trace trace1)
      (later : KeysAgree w left right rest trace1 trace2) : KeysAgree w left right (col :: rest) trace trace2

section Columns

variable {w : World}

lemma computes_notDistinct (res : Cell) (f : Func) (c0 c1 : Cell) (m : Machine) (h : Nat) :
    StepYields w (.notDistinct res { func := f, args := [c0, c1] }) res m h
      (isNotDistinct w f (m.mem c0).sql (m.mem c1).sql m.trace) := by
  have step : interpStep w (.notDistinct res { func := f, args := [c0, c1] }) m =
      execDistinct w false res { func := f, args := [c0, c1] } m := rfl
  refine computes_execDistinct step rfl (fun _ => rfl) (fun _ => rfl) fun null0 null1 => ?_
  have called : interpStep w (.notDistinct res { func := f, args := [c0, c1] }) m =
      m.call w (.function f [some (m.mem c0).value, some (m.mem c1).value]) fun ds m =>
        .next (m.set res (returned ds)) := by
    simp [step, execDistinct, null0, null1, functionCallInvoke, Machine.args, sql_of_not_isnull]
  refine computes_call called fun ds ran => ?_
  refine Computes.last (eval_jump_next ran) rfl (Frame.only _ res (returned ds)) ?_
  exact congrArg NullableDatum.sql (Machine.mem_set_self _ res (returned ds))

lemma computes_groupColumn (col : GroupColumn) (h : Nat) (m : Machine) : Computes (fun _ => True) m
      (columnEqual w (m.slots .inner).values (m.slots .outer).values col m.trace) Through
      (fun v m' => (m'.mem .result).sql = v) (eval (interpStep w) ((genGroupColumn col).piece h).code m) := by
  let m1 := m.set (.work h) ((m.slots .inner).values (col.keyColIdx - 1))
  let m2 := m1.set (.work (h + 1)) ((m.slots .outer).values (col.keyColIdx - 1))
  have inner : eval (interpStep w) ((Gen.step (.var (.work h) .inner (col.keyColIdx - 1)) : Gen 0).piece (h + 2)).code m =
      .next m1 := eval_step_next rfl
  have outer : eval (interpStep w)
      ((Gen.step (.var (.work (h + 1)) .outer (col.keyColIdx - 1)) : Gen 0).piece (h + 2)).code m1 = .next m2 :=
    eval_step_next rfl
  refine Computes.before inner (Frame.set trivial _) ?_
  refine Computes.before outer (Frame.set trivial _) ?_
  have left : m2.mem (.work h) = (m.slots .inner).values (col.keyColIdx - 1) := by
    rw [Machine.mem_set_ne _ _ (by simp), Machine.mem_set_self]
  have right : m2.mem (.work (h + 1)) = (m.slots .outer).values (col.keyColIdx - 1) := Machine.mem_set_self _ _ _
  have compared := computes_notDistinct (w := w) .result col.eqfunction (.work h) (.work (h + 1)) m2 (h + 2)
  rw [left, right] at compared
  exact compared.mono fun _ _ => trivial

/-- The columns are compared until two values differ. -/
lemma computes_groupColumns : ∀ (cols : List GroupColumn) (h : Nat) (m : Machine), (cols = [] → HoldsBool true m) →
    Computes (fun _ => True) m
      (passAll (columnEqual w (m.slots .inner).values (m.slots .outer).values) (·.any datumGetBool) cols m.trace)
      Closes HoldsBool (eval (interpStep w) ((genGroupColumns cols).piece h).code m)
  | [], _, _, held => Computes.pure (Or.inl rfl) (held rfl)
  | col :: rest, h, m, _ => by
    refine computes_condition (computes_groupColumn col h m) fun m1 slots _ held => ?_
    have later := computes_groupColumns rest ((genGroupColumn col).piece h).heap m1 fun _ => held
    rwa [slots] at later

variable {left right : Nat → NullableDatum}

lemma isNotDistinct_call (f : Func) (x y : Datum) (trace : List Call) :
    isNotDistinct w f (some x) (some y) trace = match w.answer trace (.function f [some x, some y]) with
      | .error message => .raised { message := message, trace := trace ++ [.function f [some x, some y]] }
      | .ok ds => .value (returned ds).sql (trace ++ [.function f [some x, some y]]) := by
  change Eval.bind (Eval.call w _) _ trace = _
  simp only [Eval.bind, Eval.call]
  cases w.answer trace (.function f [some x, some y]) <;> rfl

lemma columnEqual_ends (col : GroupColumn) (trace : List Call) :
    columnEqual w left right col trace ≠ .notBoolean := by
  unfold columnEqual
  cases keyValue col left with
  | none => cases keyValue col right <;> exact nofun
  | some x =>
    cases keyValue col right with
    | none => exact nofun
    | some y =>
      rw [isNotDistinct_call]
      cases w.answer trace (.function col.eqfunction [some x, some y]) <;> exact nofun

lemma columnEqual_passes {col : GroupColumn} {trace last : List Call} :
    (∃ v, columnEqual w left right col trace = .value v last ∧ v.any datumGetBool = true) ↔
      ValuesAgree w col.eqfunction (keyValue col left) (keyValue col right) trace last := by
  unfold columnEqual
  cases keyValue col left with
  | none =>
    cases keyValue col right with
    | none =>
      constructor
      · rintro ⟨v, evaluated, _⟩
        cases evaluated
        exact .nulls
      · rintro ⟨⟩
        exact ⟨_, rfl, rfl⟩
    | some y =>
      constructor
      · rintro ⟨v, evaluated, passed⟩
        cases evaluated
        cases passed
      · rintro ⟨⟩
  | some x =>
    cases keyValue col right with
    | none =>
      constructor
      · rintro ⟨v, evaluated, passed⟩
        cases evaluated
        cases passed
      · rintro ⟨⟩
    | some y =>
      rw [isNotDistinct_call]
      constructor
      · rintro ⟨v, evaluated, passed⟩
        cases called : w.answer trace (.function col.eqfunction [some x, some y]) with
        | error message =>
          rw [called] at evaluated
          cases evaluated
        | ok ds =>
          rw [called] at evaluated
          cases evaluated
          cases null : (returned ds).isnull with
          | true => simp [sql_of_isnull null] at passed
          | false => exact .values called null (by simpa [sql_of_not_isnull null] using passed)
      · rintro (_ | ⟨called, notNull, isTrue⟩)
        rw [called]
        exact ⟨_, rfl, by simp [sql_of_not_isnull notNull, isTrue]⟩

lemma passes_keysAgree : ∀ {cols : List GroupColumn} {trace last : List Call},
    Passes (columnEqual w left right) (·.any datumGetBool) cols trace last ↔ KeysAgree w left right cols trace last
  | [], trace, last => by
    constructor
    · rintro ⟨⟩
      exact .nil
    · rintro ⟨⟩
      exact .nil
  | col :: rest, trace, last => by
    constructor
    · rintro (_ | ⟨evaluated, passed, later⟩)
      exact .cons (columnEqual_passes.mp ⟨_, evaluated, passed⟩) (passes_keysAgree.mp later)
    · rintro (_ | ⟨agree, later⟩)
      obtain ⟨v, evaluated, passed⟩ := columnEqual_passes.mpr agree
      exact .cons evaluated passed (passes_keysAgree.mpr later)

end Columns

/-! ## Rows of one group -/

/-- Two values are both NULL, or neither is and they are equal. -/
def SameValue (equal : Datum → Datum → Prop) : SqlValue → SqlValue → Prop
  | none, none => True
  | some x, some y => equal x y
  | _, _ => False

/-- Two rows belong to one group, where the columns are compared by given relations. -/
def SameGroup (equal : GroupColumn → Datum → Datum → Prop) (cols : List GroupColumn)
    (left right : Nat → NullableDatum) : Prop :=
  ∀ col ∈ cols, SameValue (equal col) (keyValue col left) (keyValue col right)

/-- The equality functions of the columns decide the relations and never return NULL. -/
def Decides (w : World) (equal : GroupColumn → Datum → Datum → Prop) (cols : List GroupColumn) : Prop :=
  ∀ col ∈ cols, ∀ (trace : List Call) (x y : Datum), ∃ ds,
    w.answer trace (.function col.eqfunction [some x, some y]) = .ok ds ∧ (returned ds).isnull = false ∧
      (datumGetBool (returned ds).value = true ↔ equal col x y)

section Groups

variable {w : World} {equal : GroupColumn → Datum → Datum → Prop} {cols : List GroupColumn}

lemma sameValue_equivalence {equal : Datum → Datum → Prop} (equivalence : Equivalence equal) :
    Equivalence (SameValue equal) where
  refl
    | none => trivial
    | some x => equivalence.refl x
  symm := by
    rintro (_ | x) (_ | y) same
    · trivial
    · exact same.elim
    · exact same.elim
    · exact equivalence.symm same
  trans := by
    rintro (_ | x) (_ | y) (_ | z) same same'
    · trivial
    · exact same'.elim
    · trivial
    · exact same.elim
    · exact same.elim
    · exact same.elim
    · exact same'.elim
    · exact equivalence.trans same same'

lemma sameGroup_equivalence (equivalence : ∀ col ∈ cols, Equivalence (equal col)) :
    Equivalence (SameGroup equal cols) where
  refl _ col member := (sameValue_equivalence (equivalence col member)).refl _
  symm same col member := (sameValue_equivalence (equivalence col member)).symm (same col member)
  trans same same' col member :=
    (sameValue_equivalence (equivalence col member)).trans (same col member) (same' col member)

lemma valuesAgree_sameValue {col : GroupColumn} (decides : Decides w equal cols) (member : col ∈ cols)
    (trace : List Call) : ∀ x y : SqlValue,
    (∃ last, ValuesAgree w col.eqfunction x y trace last) ↔ SameValue (equal col) x y
  | none, none => ⟨fun _ => trivial, fun _ => ⟨trace, .nulls⟩⟩
  | none, some _ | some _, none => ⟨fun ⟨_, agree⟩ => (nomatch agree), False.elim⟩
  | some x, some y => by
    obtain ⟨ds, called, notNull, isTrue⟩ := decides col member trace x y
    constructor
    · rintro ⟨last, _ | ⟨called', _, isTrue'⟩⟩
      cases called.symm.trans called'
      exact isTrue.mp isTrue'
    · exact fun equals => ⟨_, .values called notNull (isTrue.mpr equals)⟩

lemma keysAgree_sameGroup (left right : Nat → NullableDatum) (decides : Decides w equal cols) :
    ∀ {compared : List GroupColumn}, (∀ col ∈ compared, col ∈ cols) → ∀ trace : List Call,
    (∃ last, KeysAgree w left right compared trace last) ↔ SameGroup equal compared left right
  | [], _, trace => ⟨fun _ _ member => (nomatch member), fun _ => ⟨trace, .nil⟩⟩
  | col :: rest, sub, trace => by
    have head := valuesAgree_sameValue decides (sub col List.mem_cons_self) trace (keyValue col left)
      (keyValue col right)
    have tail := keysAgree_sameGroup left right decides fun col' member => sub col' (List.mem_cons_of_mem col member)
    constructor
    · rintro ⟨last, _ | ⟨agree, later⟩⟩
      exact List.forall_mem_cons.mpr ⟨head.mp ⟨_, agree⟩, (tail _).mp ⟨_, later⟩⟩
    · intro same
      obtain ⟨first, others⟩ := List.forall_mem_cons.mp same
      obtain ⟨trace1, agree⟩ := head.mpr first
      obtain ⟨last, later⟩ := (tail trace1).mpr others
      exact ⟨last, .cons agree later⟩

end Groups

/-! ## The program -/

section Program

variable {w : World} {setup : Setup} {lvirtual rvirtual : Bool} {cols : List GroupColumn} {m : Machine}
  {slots : SlotName → Slot} {trace : List Call} {st : ExprState}

lemma groupingEqual_outcome (nonempty : cols ≠ []) (built : execBuildGroupingEqual lvirtual rvirtual cols = some st)
    (deformed : (Source.groupingEqual lvirtual rvirtual cols).deform w setup m.slots m.trace = .value slots trace) :
    ∃ W, OutcomeOf (Frame W) (m.deformed slots trace)
      (passAll (columnEqual w (slots .inner).values (slots .outer).values) (·.any datumGetBool) cols.reverse trace)
      HoldsBool (execInterpExpr w st.steps m) := by
  have source : (Source.groupingEqual lvirtual rvirtual cols).build setup = some st := built
  have body := computes_groupColumns (w := w) cols.reverse 0 (m.deformed slots trace)
    fun empty => absurd (List.reverse_eq_nil_iff.mp empty) nonempty
  exact ⟨_, execInterpExpr_leadsTo source deformed (LeadsTo.block body)⟩

lemma groupingEqual_eq (nonempty : cols ≠ []) (built : execBuildGroupingEqual lvirtual rvirtual cols = some st)
    (deformed : (Source.groupingEqual lvirtual rvirtual cols).deform w setup m.slots m.trace = .value slots trace) :
    execQual w (some st) m = some (passAll (columnEqual w (slots .inner).values (slots .outer).values)
      (·.any datumGetBool) cols.reverse trace) := by
  obtain ⟨W, outcome⟩ := groupingEqual_outcome nonempty built deformed
  have returned := boolOutcome_of (fun ret => datumGetBool ret.value) (fun b => b) outcome (fun b m' held => held.2)
  rw [Eval.bind_pure] at returned
  exact returned (passAll_ends (fun col _ => columnEqual_ends col) trace)

/-- **The program of `ExecBuildGroupingEqual` compares the key columns**, the last one first:
it is true exactly if in each of them both values are NULL, or neither is and the equality
function returns true. It never returns NULL. Where the equality functions are equivalences
that do not return NULL, the program decides an equivalence on rows. -/
theorem execBuildGroupingEqual_keysAgree (w : World) (setup : Setup) (lvirtual rvirtual : Bool)
    (cols : List GroupColumn) (nonempty : cols ≠ []) :
    ∃ st, execBuildGroupingEqual lvirtual rvirtual cols = some st ∧
      (∀ (m : Machine) (slots : SlotName → Slot) (trace : List Call),
        (Source.groupingEqual lvirtual rvirtual cols).deform w setup m.slots m.trace = .value slots trace →
        (∀ m', execInterpExpr w st.steps m = .finished m' → (m'.mem .result).isnull = false) ∧
        ∀ last, execQual w (some st) m = some (.value true last) ↔
          KeysAgree w (slots .inner).values (slots .outer).values cols.reverse trace last) ∧
      ∀ equal : GroupColumn → Datum → Datum → Prop, Decides w equal cols → (∀ col ∈ cols, Equivalence (equal col)) →
        Equivalence (SameGroup equal cols) ∧
        ∀ (m : Machine) (slots : SlotName → Slot) (trace : List Call),
          (Source.groupingEqual lvirtual rvirtual cols).deform w setup m.slots m.trace = .value slots trace →
          ((∃ last, execQual w (some st) m = some (.value true last)) ↔
            SameGroup equal cols (slots .inner).values (slots .outer).values) := by
  obtain ⟨st, built⟩ : ∃ st, execBuildGroupingEqual lvirtual rvirtual cols = some st := by
    cases cols with
    | nil => exact absurd rfl nonempty
    | cons col rest => exact ⟨_, rfl⟩
  have agrees (m : Machine) (slots : SlotName → Slot) (trace : List Call)
      (deformed : (Source.groupingEqual lvirtual rvirtual cols).deform w setup m.slots m.trace = .value slots trace)
      (last : List Call) : execQual w (some st) m = some (.value true last) ↔
        KeysAgree w (slots .inner).values (slots .outer).values cols.reverse trace last := by
    rw [groupingEqual_eq nonempty built deformed, Option.some.injEq, passAll_true, passes_keysAgree]
  refine ⟨st, built, fun m slots trace deformed => ⟨fun m' finished => ?_, agrees m slots trace deformed⟩,
    fun equal decides equivalence => ⟨sameGroup_equivalence equivalence, fun m slots trace deformed => ?_⟩⟩
  · obtain ⟨W, outcome⟩ := groupingEqual_outcome nonempty built deformed
    rw [finished] at outcome
    obtain ⟨b, _, _, held⟩ := OutcomeOf.finished outcome (passAll_ends (fun col _ => columnEqual_ends col) trace)
    exact held.1
  · have backwards : ∀ col ∈ cols.reverse, col ∈ cols := fun col => List.mem_reverse.mp
    have same : SameGroup equal cols.reverse (slots .inner).values (slots .outer).values ↔
        SameGroup equal cols (slots .inner).values (slots .outer).values := by
      simp only [SameGroup, List.mem_reverse]
    rw [← same, ← keysAgree_sameGroup _ _ decides backwards trace]
    exact exists_congr fun last => agrees m slots trace deformed last

end Program

/-- The first column and then the second one, compared by `int4eq`. -/
def twoColumns : List GroupColumn := [{ keyColIdx := 1, eqfunction := int4eq }, { keyColIdx := 2, eqfunction := int4eq }]

/-- The columns are compared from the last one on: two rows with 7 in both are of one group. -/
theorem twoColumns_sevens : ∃ st, execBuildGroupingEqual false false twoColumns = some st ∧
    execQual comparingWorld (some st) (columnMachine { value := 7, isnull := false }) =
      some (.value true [.function int4eq [some 7, some 7], .function int4eq [some 7, some 7]]) ∧
    Equivalence (SameGroup (fun _ => Eq) twoColumns) := by
  obtain ⟨st, built, compared, grouped⟩ :=
    execBuildGroupingEqual_keysAgree comparingWorld sampleSetup false false twoColumns (by decide)
  have decides : Decides comparingWorld (fun _ => Eq) twoColumns := by
    intro col member trace x y
    refine ⟨_, rfl, rfl, ?_⟩
    show datumGetBool (boolGetDatum (x == y)) = true ↔ x = y
    rw [← beq_iff_eq (a := x)]
    cases x == y <;> decide
  have sevens := (compared (columnMachine { value := 7, isnull := false }) _ [] rfl).2
    [.function int4eq [some 7, some 7], .function int4eq [some 7, some 7]]
  exact ⟨st, built, sevens.mpr (.cons (.values rfl rfl rfl) (.cons (.values rfl rfl rfl) .nil)),
    (grouped _ decides fun _ _ => eq_equivalence).1⟩

end Hex.Compiler
