/-
# Compiler.Projection — the columns of a projection

`ExecBuildProjectionInfoExt` evaluates the entries of a target list one after the other and
assigns their values to columns of the result slot. A Var that is safe is assigned by one
`EEOP_ASSIGN_*_VAR` step; anything else is evaluated into the result cell and then assigned,
a varlena after it was made read-only. Junk is evaluated and, if so asked, not assigned.

* **`execBuildProjectionInfoExt_columns`**: each column that is assigned has the value of its
  entry, and the other columns are as before.
* `targetsValue_related`: which entries are assigned by the short path makes no difference.
-/
import Hex.Compiler.Effect
import Hex.Compiler.ProgramRun
import Hex.Compiler.Unseen

namespace Hex.Compiler

open Theory.BlockCode

/-! ## Target lists -/

def TargetEntry.assigned (tle : TargetEntry) (junk : Bool) : Bool := junk || !tle.resjunk

def TargetEntry.madeReadOnly (tle : TargetEntry) (junk : Bool) (inputDesc : Option (List DescAttr)) : Bool :=
  (tle.safeVar junk inputDesc).isNone && tle.assigned junk && tle.varlena

section Targets

variable (w : World) (slots : SlotName → Slot) (setup : Setup) (junk : Bool)
  (inputDesc : Option (List DescAttr))

def TargetEntry.value (tle : TargetEntry) : Eval SqlValue := do
  let v ← tle.expr.value w slots setup (.top w)
  if tle.madeReadOnly junk inputDesc then readOnly w v else pure v

def targetsValue : List TargetEntry → Eval (List SqlValue)
  | [] => pure []
  | tle :: rest => do
    let v ← tle.value w slots setup junk inputDesc
    let vs ← targetsValue rest
    pure (v :: vs)

/-- The columns that are assigned, one after the other. -/
inductive Written : List TargetEntry → List SqlValue → (Nat → NullableDatum) → (Nat → NullableDatum) → Prop where
  | nil {row : Nat → NullableDatum} : Written [] [] row row
  | assign {tle : TargetEntry} {rest : List TargetEntry} {v : SqlValue} {vs : List SqlValue} {d : NullableDatum}
      {row row' : Nat → NullableDatum} (assigned : tle.assigned junk = true) (is : d.sql = v)
      (later : Written rest vs (Function.update row (tle.resno - 1) d) row') : Written (tle :: rest) (v :: vs) row row'
  | junk {tle : TargetEntry} {rest : List TargetEntry} {v : SqlValue} {vs : List SqlValue}
      {row row' : Nat → NullableDatum} (discarded : tle.assigned junk = false)
      (later : Written rest vs row row') : Written (tle :: rest) (v :: vs) row row'

inductive TargetsEvaluate : List TargetEntry → List SqlValue → List Call → List Call → Prop where
  | nil {trace : List Call} : TargetsEvaluate [] [] trace trace
  | cons {tle : TargetEntry} {rest : List TargetEntry} {v : SqlValue} {vs : List SqlValue}
      {trace trace₁ last : List Call} (evaluated : tle.expr.value w slots setup (.top w) trace = .value v trace₁)
      (later : TargetsEvaluate rest vs
        (trace₁ ++ readOnlyCalls (tle.madeReadOnly junk inputDesc) v) last) :
      TargetsEvaluate (tle :: rest) (v :: vs) trace last

end Targets

/-! ## Code that assigns columns -/

section Code

variable {w : World} {slots : SlotName → Slot} {setup : Setup} {junk : Bool}
  {inputDesc : Option (List DescAttr)} {K : List (Cell × NullableDatum)}

def AssignsColumn (m : Machine) (resultnum : Nat) (v : SqlValue) (m' : Machine) : Prop :=
  ∃ d : NullableDatum, d.sql = v ∧ m'.resultslot = Function.update m.resultslot resultnum d

lemma acts_assignTmp (varlena : Bool) (resultnum h : Nat) (m : Machine) {v : SqlValue}
    (value : (m.mem .result).sql = v) {W : Cell → Prop} :
    Acts W m ((if varlena then readOnly w v else pure v : Eval SqlValue) m.trace) Through
      (fun v m' => AssignsColumn m resultnum v m')
      (eval (interpStep w)
        ((Gen.step (if varlena then .assignTmpMakeRO resultnum else .assignTmp resultnum) : Gen 0).piece h).code m) := by
  have assigned (d : NullableDatum) (is : d.sql = v) (op : Op)
      (ran : interpStep w op m = .next (m.setResult resultnum d)) :
      Acts W m ((pure v : Eval SqlValue) m.trace) Through (fun v m' => AssignsColumn m resultnum v m')
        (eval (interpStep w) ((Gen.step op : Gen 0).piece h).code m) :=
    Acts.last (eval_step_next ran) rfl ⟨fun _ _ => rfl, rfl⟩ ⟨d, is, rfl⟩
  cases varlena with
  | false => exact assigned _ value (.assignTmp resultnum) rfl
  | true =>
    have step : interpStep w (.assignTmpMakeRO resultnum) m =
        if (m.mem .result).isnull then .next (m.setResult resultnum (m.mem .result))
        else makeReadOnly w (m.mem .result).value m fun d m =>
          .next (m.setResult resultnum { value := d, isnull := false }) := rfl
    cases v with
    | none =>
      rw [NullableDatum.sql_eq_none.mp value] at step
      exact assigned _ value (.assignTmpMakeRO resultnum) step
    | some d =>
      obtain ⟨null, rfl⟩ := NullableDatum.sql_eq_some.mp value
      rw [null] at step
      simp only [makeReadOnly, Bool.false_eq_true, if_false] at step
      refine Acts.call step fun ds called => ?_
      exact Acts.last (eval_jump_next called) rfl ⟨fun _ _ => rfl, rfl⟩
        ⟨{ value := (returned ds).value, isnull := false }, rfl, rfl⟩

def TargetEntry.Done (tle : TargetEntry) (junk : Bool) (m : Machine) (v : SqlValue) (m' : Machine) : Prop :=
  if tle.assigned junk then AssignsColumn m (tle.resno - 1) v m' else m'.resultslot = m.resultslot

lemma safeVar_assigned {tle : TargetEntry} {v : Var} (safe : tle.safeVar junk inputDesc = some v) :
    tle.assigned junk = true := by
  unfold TargetEntry.safeVar at safe
  split at safe
  · split at safe
    · rename_i checked
      exact (Bool.and_eq_true_iff.mp checked).1
    · cases safe
  · cases safe

lemma acts_target (tle : TargetEntry) (h : Nat) (m : Machine) (proper : tle.expr.proper = true)
    (loaded : Loaded K m) (relies : (genTarget setup junk inputDesc tle).Relies K h) :
    Acts (fun _ => True) m
      (tle.value w m.slots setup junk inputDesc m.trace) Through (tle.Done junk m)
      (eval (interpStep w) ((genTarget setup junk inputDesc tle).piece h).code m) := by
  unfold genTarget at relies ⊢
  unfold TargetEntry.value TargetEntry.madeReadOnly
  cases safe : tle.safeVar junk inputDesc with
  | some v =>
    -- the short path
    obtain ⟨isVar, pos⟩ := safeVar_eq safe
    have assigned : tle.assigned junk = true := safeVar_assigned safe
    have column : tle.expr.value w m.slots setup (.top w) =
        pure ((m.slots v.varno).values (v.varattno - 1).toNat).sql := by
      rw [isVar, Node.value, varValue, if_neg (by omega), if_neg (by omega)]
    rw [column]
    refine Acts.last (eval_step_next rfl) rfl ⟨fun _ _ => rfl, rfl⟩ ?_
    rw [TargetEntry.Done, if_pos assigned]
    exact ⟨_, rfl, rfl⟩
  | none =>
    simp only [safe] at relies
    have evaluated := tle.expr.computes_top (w := w) proper loaded (Gen.relies_seq.mp relies).1
    have discards : (!junk && tle.resjunk) = !tle.assigned junk := by
      rw [TargetEntry.assigned, Bool.not_or, Bool.not_not]
    rw [discards, Option.isNone_none, Bool.true_and]
    refine Acts.seq (Acts.of_computes evaluated) (fun _ _ => trivial) fun v m1 frame held => ?_
    obtain ⟨value, kept, _⟩ := held
    cases assigned : tle.assigned junk with
    | false => exact Acts.last rfl rfl (MemoryFrame.refl m1) (by simpa [TargetEntry.Done, assigned] using kept)
    | true =>
      refine LeadsTo.imp (acts_assignTmp tle.varlena (tle.resno - 1) _ m1 value) (fun _ _ => id) ?_
      rintro v' m' _ ⟨d, is, row⟩
      rw [TargetEntry.Done, if_pos assigned]
      exact ⟨d, is, by rw [row, kept]⟩

lemma acts_targets : ∀ (targetList : List TargetEntry) (h : Nat) (m : Machine),
    (∀ tle ∈ targetList, tle.expr.proper = true) →
    Loaded K m → (genTargets setup junk inputDesc targetList).Relies K h →
    Acts (fun _ => True) m (targetsValue w m.slots setup junk inputDesc targetList m.trace) Through
      (fun vs m' => Written junk targetList vs m.resultslot m'.resultslot)
      (eval (interpStep w) ((genTargets setup junk inputDesc targetList).piece h).code m)
  | [], h, m, _, _, _ => Acts.last rfl rfl (MemoryFrame.refl m) .nil
  | tle :: rest, h, m, proper, loaded, relies => by
    obtain ⟨reliesFirst, reliesRest⟩ := Gen.relies_seq.mp relies
    have first := acts_target (w := w) tle h m (proper tle List.mem_cons_self) loaded reliesFirst
    rw [targetsValue]
    refine Acts.seq (LeadsTo.through first) (fun _ => id) ?_
    rintro v m1 frame ⟨done, ran⟩
    have later := acts_targets rest _ m1 (fun tle' member => proper tle' (List.mem_cons_of_mem tle member))
      (reliesFirst.loaded loaded ran) reliesRest
    rw [frame.slots] at later
    refine LeadsTo.map later (fun _ _ => id) fun vs m' _ written => ?_
    cases assigned : tle.assigned junk with
    | true =>
      simp only [TargetEntry.Done, assigned, if_true] at done
      obtain ⟨d, is, row⟩ := done
      exact .assign assigned is (row ▸ written)
    | false =>
      simp only [TargetEntry.Done, assigned, Bool.false_eq_true, if_false] at done
      exact .junk assigned (done ▸ written)

end Code

/-! ## Reading the columns -/

section Columns

variable {junk : Bool} {targetList : List TargetEntry} {vs : List SqlValue} {row row' : Nat → NullableDatum}

/-- A column to which nothing is assigned is as before. -/
lemma Written.other {n : Nat} (written : Written junk targetList vs row row') :
    (∀ tle ∈ targetList, tle.assigned junk = true → tle.resno - 1 ≠ n) → row' n = row n := by
  induction written with
  | nil => exact fun _ => rfl
  | assign assigned is later ih =>
    intro apart
    rw [ih fun tle' member => apart tle' (List.mem_cons_of_mem _ member)]
    exact Function.update_of_ne (apart _ List.mem_cons_self assigned).symm _ _
  | junk discarded later ih => exact fun apart => ih fun tle' member => apart tle' (List.mem_cons_of_mem _ member)

lemma Written.column (written : Written junk targetList vs row row') :
    (∀ tle ∈ targetList, 0 < tle.resno) → (targetList.map TargetEntry.resno).Nodup → ∀ (i : Nat) (tle : TargetEntry)
      (v : SqlValue), targetList[i]? = some tle → vs[i]? = some v → tle.assigned junk = true →
      (row' (tle.resno - 1)).sql = v := by
  induction written with
  | nil => exact fun _ _ i tle v at_ => by simp at at_
  | @assign tle rest v vs d row row' assigned is later ih =>
    intro positive distinct i tle' v' at_ value assigned'
    obtain ⟨fresh, distinct⟩ := List.nodup_cons.mp distinct
    have positive' := fun tle' member => positive tle' (List.mem_cons_of_mem _ member)
    cases i with
    | zero =>
      cases at_
      cases value
      rw [later.other fun other member _ same => ?_, Function.update_self, is]
      have first := positive tle List.mem_cons_self
      have second := positive' other member
      exact fresh (List.mem_map.mpr ⟨other, member, by omega⟩)
    | succ i => exact ih positive' distinct i tle' v' at_ value assigned'
  | junk discarded later ih =>
    intro positive distinct i tle' v' at_ value assigned'
    cases i with
    | zero =>
      cases at_
      rw [discarded] at assigned'
      cases assigned'
    | succ i =>
      exact ih (fun other member => positive other (List.mem_cons_of_mem _ member)) (List.nodup_cons.mp distinct).2 i tle'
        v' at_ value assigned'

lemma Written.agree {other other' : Nat → NullableDatum} (written : Written junk targetList vs row row')
    (written' : Written junk targetList vs other other') (same : ∀ n, (row n).sql = (other n).sql) :
    ∀ n, (row' n).sql = (other' n).sql := by
  induction written generalizing other with
  | nil =>
    cases written'
    exact same
  | @assign tle rest v vs d row row' assigned is later ih =>
    cases written' with
    | @assign _ _ _ _ d' _ _ _ is' later' =>
      refine ih later' fun n => ?_
      by_cases here : n = tle.resno - 1
      · rw [here, Function.update_self, Function.update_self, is, is']
      · rw [Function.update_of_ne here, Function.update_of_ne here, same]
    | junk discarded _ =>
      rw [assigned] at discarded
      cases discarded
  | junk discarded later ih =>
    cases written' with
    | assign assigned _ _ =>
      rw [assigned] at discarded
      cases discarded
    | junk _ later' => exact ih later' same

end Columns

/-! ## Reading the evaluation -/

def Call.isMakeReadOnly : Call → Bool
  | .makeReadOnly _ => true
  | _ => false

lemma hidden_readOnlyCalls (needed : Bool) (x : SqlValue) :
    ∀ c ∈ readOnlyCalls needed x, c.isMakeReadOnly = true := by
  intro c member
  cases needed with
  | false => cases member
  | true =>
    obtain ⟨d, _, rfl⟩ := List.mem_map.mp member
    rfl

section Evaluation

variable {w : World} {slots : SlotName → Slot} {setup : Setup} {junk : Bool}
  {inputDesc : Option (List DescAttr)}

lemma targetsValue_cons (keeps : KeepsReadOnly w) (tle : TargetEntry) (rest : List TargetEntry) (trace : List Call) :
    targetsValue w slots setup junk inputDesc (tle :: rest) trace =
      match tle.expr.value w slots setup (.top w) trace with
      | .value v trace₁ =>
        match targetsValue w slots setup junk inputDesc rest
            (trace₁ ++ readOnlyCalls (tle.madeReadOnly junk inputDesc) v) with
        | .value vs last => .value (v :: vs) last
        | .raised e => .raised e
        | .notBoolean => .notBoolean
      | .raised e => .raised e
      | .notBoolean => .notBoolean := by
  change Eval.bind (Eval.bind (tle.expr.value w slots setup (.top w)) _) _ trace = _
  simp only [Eval.bind]
  cases tle.expr.value w slots setup (.top w) trace with
  | value v trace₁ =>
    dsimp only
    rw [readOnly_keeps keeps]
    change Eval.bind (targetsValue w slots setup junk inputDesc rest) _ _ = _
    simp only [Eval.bind]
    cases targetsValue w slots setup junk inputDesc rest _ <;> rfl
  | raised e => rfl
  | notBoolean => rfl

lemma targetsValue_value (keeps : KeepsReadOnly w) : ∀ (targetList : List TargetEntry) (vs : List SqlValue)
    (trace last : List Call),
    targetsValue w slots setup junk inputDesc targetList trace = .value vs last ↔
      TargetsEvaluate w slots setup junk inputDesc targetList vs trace last
  | [], vs, trace, last => by
    constructor
    · intro eq
      cases eq
      exact .nil
    · rintro ⟨⟩
      rfl
  | tle :: rest, vs, trace, last => by
    rw [targetsValue_cons keeps]
    constructor
    · intro eq
      split at eq
      · rename_i v trace₁ evaluated
        split at eq
        · rename_i vs' last' later
          cases eq
          exact .cons evaluated ((targetsValue_value keeps rest vs' _ _).mp later)
        · cases eq
        · cases eq
      · cases eq
      · cases eq
    · rintro (_ | ⟨evaluated, later⟩)
      simp only [evaluated, (targetsValue_value keeps rest _ _ _).mpr later]

lemma targetsValue_raised (keeps : KeepsReadOnly w) : ∀ (targetList : List TargetEntry) (trace : List Call) (e : Raised),
    targetsValue w slots setup junk inputDesc targetList trace = .raised e ↔
      ∃ before tle after vs trace₁, targetList = before ++ tle :: after ∧
        TargetsEvaluate w slots setup junk inputDesc before vs trace trace₁ ∧
        tle.expr.value w slots setup (.top w) trace₁ = .raised e
  | [], trace, e => by
    constructor
    · exact nofun
    · rintro ⟨before, tle, after, vs, trace₁, split, _⟩
      simp at split
  | tle :: rest, trace, e => by
    rw [targetsValue_cons keeps]
    constructor
    · intro eq
      split at eq
      · rename_i v trace₁ evaluated
        split at eq
        · cases eq
        · rename_i e' later
          cases eq
          obtain ⟨before, tle', after, vs, trace2, rfl, passed, raised⟩ := (targetsValue_raised keeps rest _ e).mp later
          exact ⟨tle :: before, tle', after, v :: vs, trace2, rfl, .cons evaluated passed, raised⟩
        · cases eq
      · rename_i e' raised
        cases eq
        exact ⟨[], tle, rest, [], trace, rfl, .nil, raised⟩
      · cases eq
    · rintro ⟨before, tle', after, vs, trace₁, split, passed, raised⟩
      cases passed with
      | nil =>
        cases split
        rw [raised]
      | cons evaluated later =>
        rw [List.cons_append, List.cons.injEq] at split
        obtain ⟨rfl, rfl⟩ := split
        have fails := (targetsValue_raised keeps _ _ e).mpr ⟨_, tle', after, _, trace₁, rfl, later, raised⟩
        simp only [evaluated, fails]

lemma targetsValue_ends (keeps : KeepsReadOnly w) : ∀ (targetList : List TargetEntry) (trace : List Call),
    (∀ tle ∈ targetList, ∀ trace, tle.expr.value w slots setup (.top w) trace ≠ .notBoolean) →
    targetsValue w slots setup junk inputDesc targetList trace ≠ .notBoolean
  | [], _, _ => nofun
  | tle :: rest, trace, ends => by
    rw [targetsValue_cons keeps]
    have head := ends tle List.mem_cons_self trace
    split
    · rename_i v trace₁ evaluated
      have tail := targetsValue_ends keeps rest
        (trace₁ ++ readOnlyCalls (tle.madeReadOnly junk inputDesc) v)
        fun tle' member => ends tle' (List.mem_cons_of_mem tle member)
      split
      · exact nofun
      · exact nofun
      · rename_i failed
        exact absurd failed tail
    · exact nofun
    · rename_i failed
      exact absurd failed head

lemma targetsValue_related (keeps : KeepsReadOnly w) (unseen : Unseen Call.isMakeReadOnly w)
    (inputDesc inputDesc' : Option (List DescAttr)) : ∀ targetList : List TargetEntry,
    Related Call.isMakeReadOnly Eq (targetsValue w slots setup junk inputDesc targetList)
      (targetsValue w slots setup junk inputDesc' targetList)
  | [] => .pure rfl
  | tle :: rest => by
    have entry : Related Call.isMakeReadOnly Eq (tle.value w slots setup junk inputDesc)
        (tle.value w slots setup junk inputDesc') := by
      refine .bind (tle.expr.value_unaware slots setup unseen (.top w)) ?_
      rintro v _ rfl trace trace' same
      rw [readOnly_keeps keeps, readOnly_keeps keeps]
      exact .value rfl (by rw [visible_hidden (hidden_readOnlyCalls _ v), visible_hidden (hidden_readOnlyCalls _ v), same])
    refine entry.bind ?_
    rintro v _ rfl
    refine (targetsValue_related keeps unseen inputDesc inputDesc' rest).bind ?_
    rintro vs _ rfl
    exact .pure rfl

end Evaluation

/-! ## The program -/

/-- A projection's program run on `m`. -/
def project (w : World) (setup : Setup) (targetList : List TargetEntry) (junk : Bool)
    (inputDesc : Option (List DescAttr)) (m : Machine) : Outcome Machine Raised :=
  execInterpExpr w (execBuildProjectionInfoExt setup targetList junk inputDesc).steps m

section Program

variable {w : World} {setup : Setup} {targetList : List TargetEntry} {junk : Bool}
  {inputDesc : Option (List DescAttr)} {m : Machine} {slots : SlotName → Slot} {trace : List Call}

lemma project_outcome (proper : ∀ tle ∈ targetList, tle.expr.proper = true)
    (deformed : (Source.projection targetList junk inputDesc).deform w setup m.slots m.trace =
      .value slots trace)
    (loaded : Loaded (execBuildProjectionInfoExt setup targetList junk inputDesc).stores m) :
    ∃ W, OutcomeOf (MemoryFrame W) (m.deformed slots trace)
      (targetsValue w slots setup junk inputDesc targetList trace)
      (fun vs m' => Written junk targetList vs m.resultslot m'.resultslot)
      (project w setup targetList junk inputDesc m) := by
  have built : (Source.projection targetList junk inputDesc).build setup =
      some (execBuildProjectionInfoExt setup targetList junk inputDesc) := rfl
  have body := acts_targets (w := w) targetList 0 (m.deformed slots trace) proper
    (Source.loaded_body built loaded slots trace)
    ((Source.projection targetList junk inputDesc).body_relies setup 0)
  exact ⟨_, execInterpExpr_leadsTo built deformed body⟩

/-- **The columns of a projection.** The entries are evaluated one after the other, junk
included. Each column that an entry is assigned to has its value then, and every other
column is as before; the first entry that raises an error ends the projection. Where no
function can tell whether a value was made read-only before, another choice between the two
paths (given by another input descriptor) leads to the same columns. -/
theorem execBuildProjectionInfoExt_columns (w : World) (setup : Setup) (targetList : List TargetEntry)
    (junk : Bool) (inputDesc : Option (List DescAttr)) (m : Machine) (slots : SlotName → Slot)
    (trace : List Call) (keeps : KeepsReadOnly w) (proper : ∀ tle ∈ targetList, tle.expr.proper = true)
    (booleans : ∀ tle ∈ targetList, ∀ trace, tle.expr.value w slots setup (.top w) trace ≠ .notBoolean)
    (positive : ∀ tle ∈ targetList, 0 < tle.resno) (distinct : (targetList.map TargetEntry.resno).Nodup)
    (deformed : (Source.projection targetList junk inputDesc).deform w setup m.slots m.trace =
      .value slots trace)
    (loaded : Loaded (execBuildProjectionInfoExt setup targetList junk inputDesc).stores m) :
    (∀ m', project w setup targetList junk inputDesc m = .finished m' →
      ∃ vs, TargetsEvaluate w slots setup junk inputDesc targetList vs trace m'.trace ∧
        (∀ (i : Nat) (tle : TargetEntry) (v : SqlValue), targetList[i]? = some tle → vs[i]? = some v →
          tle.assigned junk = true → (m'.resultslot (tle.resno - 1)).sql = v) ∧
        ∀ n, (∀ tle ∈ targetList, tle.assigned junk = true → tle.resno - 1 ≠ n) →
          m'.resultslot n = m.resultslot n) ∧
    (∀ vs last, TargetsEvaluate w slots setup junk inputDesc targetList vs trace last →
      ∃ m', project w setup targetList junk inputDesc m = .finished m' ∧ m'.trace = last) ∧
    (∀ e, project w setup targetList junk inputDesc m = .failed e ↔
      ∃ before tle after vs trace₁, targetList = before ++ tle :: after ∧
        TargetsEvaluate w slots setup junk inputDesc before vs trace trace₁ ∧
        tle.expr.value w slots setup (.top w) trace₁ = .raised e) ∧
    ∀ inputDesc', Unseen Call.isMakeReadOnly w →
      Loaded (execBuildProjectionInfoExt setup targetList junk inputDesc').stores m →
      ∀ m', project w setup targetList junk inputDesc m = .finished m' →
        ∃ m'', project w setup targetList junk inputDesc' m = .finished m'' ∧
          ∀ n, (m''.resultslot n).sql = (m'.resultslot n).sql := by
  obtain ⟨W, outcome⟩ := project_outcome proper deformed loaded
  have ends : targetsValue w slots setup junk inputDesc targetList trace ≠ .notBoolean :=
    targetsValue_ends keeps targetList trace booleans
  refine ⟨fun m' finished => ?_, fun vs last evaluated => ?_, fun e => ?_, fun inputDesc' unseen loaded' m' finished => ?_⟩
  · rw [finished] at outcome
    obtain ⟨vs, answered, _, written⟩ := OutcomeOf.finished outcome ends
    exact ⟨vs, (targetsValue_value keeps targetList vs trace _).mp answered, written.column positive distinct,
      fun n => written.other⟩
  · exact (outcome.finished_iff ends last).mpr ⟨vs, (targetsValue_value keeps targetList vs trace last).mpr evaluated⟩
  · rw [outcome.failed_iff ends, targetsValue_raised keeps]
  · rw [finished] at outcome
    obtain ⟨vs, answered, _, written⟩ := OutcomeOf.finished outcome ends
    have deformed' : (Source.projection targetList junk inputDesc').deform w setup m.slots m.trace =
        .value slots trace := deformed
    obtain ⟨W', outcome'⟩ := project_outcome proper deformed' loaded'
    have related : SameAnswer Call.isMakeReadOnly Eq
        (targetsValue w slots setup junk inputDesc targetList trace)
        (targetsValue w slots setup junk inputDesc' targetList trace) :=
      targetsValue_related keeps unseen inputDesc inputDesc' targetList trace trace rfl
    rw [answered] at related
    obtain ⟨_, last, answered', rfl, _⟩ := related.of_value
    rw [answered'] at outcome'
    obtain ⟨m'', finished', _, _, written'⟩ := outcome'
    exact ⟨m'', finished', written'.agree written fun _ => rfl⟩

end Program

/-- `x = 7` as junk for the first column, and the varlena column `x` for the second. -/
def junkTargets : List TargetEntry :=
  let x : Node := .var { varno := .scan, varattno := 1, vartype := 23 }
  [{ expr := .opExpr int4eq [x, .const { value := 7, isnull := false }], resno := 1, resjunk := true, varlena := false },
    { expr := x, resno := 2, resjunk := false, varlena := true }]

/-- The junk is evaluated and not assigned, and both paths assign `x`. -/
theorem junkTargets_columns : ∃ m' m'',
    project keepingWorld sampleSetup junkTargets false none (columnMachine { value := 7, isnull := false }) =
      .finished m' ∧
    m'.trace = [.function int4eq [some 7, some 7]] ∧ (m'.resultslot 1).sql = some 7 ∧ m'.resultslot 0 = nullDatum ∧
    project keepingWorld sampleSetup junkTargets false (some []) (columnMachine { value := 7, isnull := false }) =
      .finished m'' ∧
    (m''.resultslot 1).sql = some 7 := by
  have stored (inputDesc : Option (List DescAttr)) (known : inputDesc = none ∨ inputDesc = some []) :
      Loaded (execBuildProjectionInfoExt sampleSetup junkTargets false inputDesc).stores
        (columnMachine { value := 7, isnull := false }) := by
    have sevens : ∀ p ∈ (execBuildProjectionInfoExt sampleSetup junkTargets false inputDesc).stores,
        p.2.sql = some 7 := by
      rcases known with rfl | rfl <;> decide
    exact fun p member => (sevens p member).symm
  obtain ⟨columns, finishes, -, paths⟩ := execBuildProjectionInfoExt_columns keepingWorld sampleSetup junkTargets false
    none (columnMachine { value := 7, isnull := false }) (columnMachine { value := 7, isnull := false }).slots []
    keepingWorld_keeps (by decide) (fun tle member => by rcases List.mem_pair.mp member with rfl | rfl <;> exact nofun)
    (by decide) (by decide) rfl (stored none (Or.inl rfl))
  obtain ⟨m', finished, traced⟩ := finishes [some 1, some 7] [.function int4eq [some 7, some 7]]
    (.cons rfl (.cons rfl .nil))
  obtain ⟨vs, evaluated, assigned, kept⟩ := columns m' finished
  obtain ⟨m'', finished', same⟩ := paths (some []) (fun _ _ _ _ => rfl) (stored (some []) (Or.inr rfl)) m' finished
  have seven : (m'.resultslot 1).sql = some 7 := by
    cases evaluated with
    | cons first later =>
      cases later with
      | cons second _ =>
        cases second
        exact assigned 1 _ _ rfl rfl rfl
  exact ⟨m', m'', finished, traced, seven, kept 0 (by decide), finished', (same 1).trans seven⟩

end Hex.Compiler
