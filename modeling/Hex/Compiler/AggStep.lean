/-
# Compiler.AggStep — what a row does to the transition states

What SQL asks of an aggregate is said here without the program: a row for which the FILTER is
true gives arguments (`transInput`), and `sqlStep` says what the arguments do to a state.

A pass-by-reference value is copied on the way, so values are compared by what they stand for
(`content`). Transition functions are pure (`PureTransitions`): what they return stands for a
function of the state and the arguments, and no other function can see that they were called.

**`advanceTransValues_tracks`**: the program does to every transition state of the row's groups
what the row does to it, and leaves every other one alone.
-/
import Hex.Compiler.AggTrans
import Hex.Compiler.Unseen

namespace Hex.Compiler

variable {args : List SqlValue}

/-! ## The fold of SQL -/

/-- A transition state: without an initial value until the first row, or a value. -/
inductive TransState (V : Type) where
  | missing
  | value (v : Option V)
  deriving DecidableEq, Repr

/-- What a row does to a transition state. A strict function is not called for NULL arguments; a
missing initial value is replaced by the first argument; a state of a strict function that is
NULL stays. Otherwise the state is what the function returns. -/
def sqlStep {V : Type} (strict : Bool) (f : Option V → List (Option V) → Option V) (s : TransState V)
    (args : List (Option V)) : TransState V :=
  if strict && args.any Option.isNone then s
  else
    match s with
    | .missing => .value args.head?.join
    | .value none => if strict then .value none else .value (f none args)
    | .value (some v) => .value (f (some v) args)

/-- The calls for transition values: transition functions, and the copies of values. -/
def Call.isTransition : Call → Bool
  | .transition _ _ _ _ | .aggInitGroup _ _ | .aggTransReparent _ _ _ => true
  | _ => false

/-- Transition functions are pure functions `f` of state and arguments, for what values stand for;
copies stand for the same; and no function depends on these calls. -/
structure PureTransitions {V : Type} (w : World) (content : Datum → V)
    (f : Nat → Option V → List (Option V) → Option V) : Prop where
  unseen : Unseen Call.isTransition w
  transition : ∀ trace func transno setno state args ds,
    w.answer trace (.transition func transno setno (state :: args)) = .ok ds →
      (returned ds).sql.map content = f transno (state.map content) (args.map (Option.map content))
  initGroup : ∀ trace transno v ds, w.answer trace (.aggInitGroup transno (some v)) = .ok ds →
    content (returned ds).value = content v
  reparent : ∀ trace transno v old ds, w.answer trace (.aggTransReparent transno (some v) old) = .ok ds →
    content (returned ds).value = content v

/-- What a transition value stands for. -/
def PerTrans.state {V : Type} (content : Datum → V) (p : PerTrans) (g : PerGroup) : TransState V :=
  if p.kind = .initStrict ∧ g.noTransValue = true then .missing else .value (g.sql.map content)

/-! ## One group -/

section Group

variable {V : Type} {w : World} {content : Datum → V} {f : Nat → Option V → List (Option V) → Option V} {p : PerTrans}
  {transno : Nat} {g : PerGroup} {setno : Nat}

lemma sqlStep_called {strict : Bool} {step : Option V → List (Option V) → Option V} {v : Option V}
    {args : List (Option V)} (called : strict = true → v.isSome = true)
    (notNull : (strict && args.any Option.isNone) = false) :
    sqlStep strict step (.value v) args = .value (step v args) := by
  unfold sqlStep
  rw [notNull, if_neg Bool.false_ne_true]
  cases v with
  | some v => rfl
  | none =>
    cases strict with
    | false => rfl
    | true => cases called rfl

lemma any_isNone_content (args : List SqlValue) :
    (args.map (Option.map content)).any Option.isNone = args.any Option.isNone := by
  rw [List.any_map]
  congr 1
  funext arg
  exact Option.isNone_map

lemma state_value (present : p.kind = .initStrict → g.noTransValue = false) :
    p.state content g = .value (g.sql.map content) := by
  rw [PerTrans.state, if_neg]
  rintro ⟨kind, missing⟩
  rw [present kind] at missing
  cases missing

lemma state_replaced (present : p.kind = .initStrict → g.noTransValue = false) (value : Datum)
    (isnull : Bool) : p.state content { g with transValue := value, transValueIsNull := isnull } =
      .value ((NullableDatum.sql { value := value, isnull := isnull }).map content) :=
  state_value present

/-- A call of the transition function leaves a state that stands for the function's result. -/
lemma callTrans_tracks (purity : PureTransitions w content f)
    (present : p.kind = .initStrict → g.noTransValue = false) :
    Tracks Call.isTransition w
      (fun g' _ => p.state content g' = .value (f transno (g.sql.map content) (args.map (Option.map content))))
      (callTrans w p transno setno args g) (pure () : Eval Unit) := by
  refine Tracks.call rfl fun trace ds answered => ?_
  have result := purity.transition trace p.transfn transno setno g.sql args ds answered
  split
  · refine Tracks.call rfl fun trace' ds' copied => Tracks.pure ?_
    rw [state_replaced present, ← result]
    cases new : (returned ds).sql with
    | none =>
      rw [NullableDatum.sql_eq_none.mp new]
      rfl
    | some v =>
      rw [new] at copied
      have same := purity.reparent trace' transno v g.sql ds' copied
      rw [(NullableDatum.sql_eq_some.mp new).1, Option.map_some, ← same]
      rfl
  · refine Tracks.pure ?_
    rw [state_replaced present, ← result]

lemma initTrans_tracks (purity : PureTransitions w content f) (v : Datum) (rest : List SqlValue) :
    Tracks Call.isTransition w (fun g' _ => p.state content g' = .value (some (content v)))
      (initTrans w transno (some v :: rest)) (pure () : Eval Unit) := by
  refine Tracks.call rfl fun trace ds copied => Tracks.pure ?_
  rw [state_value fun _ => rfl, ← purity.initGroup trace transno v ds copied]
  rfl

lemma advanceStrict_tracks (purity : PureTransitions w content f)
    (strict : p.transfn.fnStrict = true) (notNull : args.any Option.isNone = false)
    (present : p.kind = .initStrict → g.noTransValue = false) :
    Tracks Call.isTransition w (fun g' _ => p.state content g' =
        sqlStep p.transfn.fnStrict (f transno) (p.state content g) (args.map (Option.map content)))
      (if g.transValueIsNull then pure g else callTrans w p transno setno args g) (pure () : Eval Unit) := by
  have values : (args.map (Option.map content)).any Option.isNone = false := (any_isNone_content args).trans notNull
  split
  · rename_i null
    refine Tracks.pure ?_
    have none : g.sql = none := sql_of_isnull null
    rw [state_value present, none, Option.map_none, strict]
    unfold sqlStep
    rw [values]
    rfl
  · rename_i notNull
    refine (callTrans_tracks purity present).imp fun g' _ same => ?_
    rw [same, state_value present, sqlStep_called]
    · intro _
      rw [Option.isSome_map, PerGroup.sql, sql_of_not_isnull (Bool.eq_false_iff.mpr notNull), Option.isSome_some]
    · rw [values, Bool.and_false]

/-- **A transition step does to a group what the row does to its state.** -/
theorem advanceGroup_tracks (purity : PureTransitions w content f)
    (notNull : (p.transfn.fnStrict && args.any Option.isNone) = false) (given : p.kind = .initStrict → args ≠ []) :
    Tracks Call.isTransition w (fun g' _ => p.state content g' =
        sqlStep p.transfn.fnStrict (f transno) (p.state content g) (args.map (Option.map content)))
      (advanceGroup w p transno setno args g) (pure () : Eval Unit) := by
  have strict (kind : p.kind ≠ .plain) : p.transfn.fnStrict = true := by
    by_contra notStrict
    refine kind ?_
    rw [PerTrans.kind, Bool.eq_false_iff.mpr notStrict]
    rfl
  unfold advanceGroup
  cases kind : p.kind with
  | initStrict =>
    have isStrict := strict (by simp [kind])
    rw [isStrict, Bool.true_and] at notNull
    dsimp only
    cases missing : g.noTransValue with
    | false => exact advanceStrict_tracks purity isStrict notNull fun _ => missing
    | true =>
      have state : p.state content g = .missing := if_pos ⟨kind, missing⟩
      obtain ⟨arg, rest, rfl⟩ := List.exists_cons_of_ne_nil (given kind)
      cases arg with
      | none => simp at notNull
      | some v =>
        refine (initTrans_tracks (p := p) purity v rest).imp fun g' _ same => ?_
        rw [same, state]
        unfold sqlStep
        rw [if_neg]
        · rfl
        · rw [isStrict, any_isNone_content, Bool.true_and, notNull]
          exact Bool.false_ne_true
  | strict =>
    have isStrict := strict (by simp [kind])
    rw [isStrict, Bool.true_and] at notNull
    exact advanceStrict_tracks purity isStrict notNull fun init => nomatch kind.symm.trans init
  | plain =>
    have present : p.kind = .initStrict → g.noTransValue = false := fun init => nomatch kind.symm.trans init
    have notStrict : p.transfn.fnStrict = false := by
      by_contra isStrict
      rw [PerTrans.kind, Bool.ne_false_iff.mp isStrict] at kind
      split at kind <;> simp at kind
    refine (callTrans_tracks purity present).imp fun g' _ same => ?_
    rw [same, state_value present, sqlStep_called]
    · exact fun isStrict => nomatch notStrict.symm.trans isStrict
    · rw [notStrict, Bool.false_and]

end Group

/-! ## Inputs -/

section Inputs

variable (w : World) (setup : Setup)

/-- The inputs of an aggregate with ORDER BY or DISTINCT go to the sorts of the sets that the row
belongs to. -/
def sortSets (p : PerTrans) (transno : Nat) (args : List SqlValue) (pointed : Nat → Bool) : List (Nat × Nat) → Eval Unit
  | [] => pure ()
  | (setno, setoff) :: rest =>
    (if p.numSortCols ≠ 0 ∧ pointed setoff = true then putSorted w p transno setno args else pure ()) >>= fun _ =>
      sortSets p transno args pointed rest

/-- The arguments that a row has for a transition state; none when the FILTER is not true. -/
def transInput (slots : SlotName → Slot) (phase : AggPhase) (p : PerTrans) (transno : Nat) (pointed : Nat → Bool) :
    Eval (Option (List SqlValue)) :=
  p.passes w slots setup >>= fun passes =>
    if passes then
      listValue w slots setup p.args (.top w) >>= fun args =>
        (if p.skips args then pure () else sortSets w p transno args pointed phase.sets) >>= fun _ => pure (some args)
    else pure none

def transInputs (slots : SlotName → Slot) (phase : AggPhase) (pointed : Nat → Bool) :
    List PerTrans → Nat → Eval (List (Option (List SqlValue)))
  | [], _ => pure []
  | p :: rest, transno =>
    transInput w setup slots phase p transno pointed >>= fun input =>
      transInputs slots phase pointed rest (transno + 1) >>= fun inputs => pure (input :: inputs)

end Inputs

/-! ## Groups of a row -/

/-- `G` relates the transition values before and after, for each set with a group. -/
def Changes (G : Nat → Nat → PerGroup → PerGroup → Prop) (pergroups pergroups' : AllPergroups) : Prop :=
  ∀ setoff, Option.Rel (fun groups groups' => ∀ transno, G setoff transno (groups transno) (groups' transno))
    (pergroups setoff) (pergroups' setoff)

namespace Changes

variable {G G' G'' : Nat → Nat → PerGroup → PerGroup → Prop} {pergroups pergroups1 pergroups' : AllPergroups}

lemma refl (same : ∀ setoff groups, pergroups setoff = some groups → ∀ transno g, G setoff transno g g) :
    Changes G pergroups pergroups := by
  intro setoff
  cases pointer : pergroups setoff with
  | none => exact .none
  | some groups => exact .some fun transno => same setoff groups pointer transno _

lemma trans (first : Changes G pergroups pergroups1) (second : Changes G' pergroups1 pergroups')
    (both : ∀ setoff transno g g1 g', G setoff transno g g1 → G' setoff transno g1 g' → G'' setoff transno g g') :
    Changes G'' pergroups pergroups' := by
  intro setoff
  have before := first setoff
  have after := second setoff
  generalize pergroups setoff = a, pergroups1 setoff = b, pergroups' setoff = c at before after
  cases before with
  | none =>
    cases after
    exact .none
  | some changed =>
    cases after with
    | some changed' => exact .some fun transno => both setoff transno _ _ _ (changed transno) (changed' transno)

lemma set {setoff transno : Nat} {g : PerGroup} {groups : Nat → PerGroup} (pointer : pergroups setoff = some groups)
    (changed : G setoff transno (groups transno) g)
    (others : ∀ setoff' transno' g', ¬ (setoff' = setoff ∧ transno' = transno) → G setoff' transno' g' g') :
    Changes G pergroups (pergroups.set setoff transno g) := by
  intro setoff'
  by_cases here : setoff' = setoff
  · rw [here, AllPergroups.set, Function.update_self, pointer, Option.map_some]
    refine .some fun transno' => ?_
    by_cases this : transno' = transno
    · rw [this, Function.update_self]
      exact changed
    · rw [Function.update_of_ne this]
      exact others setoff transno' _ fun both => this both.2
  · rw [AllPergroups.set, Function.update_of_ne here]
    cases pergroups setoff' with
    | none => exact .none
    | some groups' => exact .some fun transno' => others setoff' transno' _ fun both => here both.1

lemma pointers (changes : Changes G pergroups pergroups') : SamePointers pergroups pergroups' := by
  intro setoff
  have changed := changes setoff
  generalize pergroups setoff = a, pergroups' setoff = b at changed
  cases changed <;> rfl

end Changes

section Row

variable {V : Type} (content : Datum → V) (f : Nat → Option V → List (Option V) → Option V)

def RowStep (p : PerTrans) (transno : Nat) (input : Option (List SqlValue)) (g g' : PerGroup) : Prop :=
  match input with
  | none => g' = g
  | some args => p.state content g' =
      sqlStep p.transfn.fnStrict (f transno) (p.state content g) (args.map (Option.map content))

/-- A transition step is made for the set and the transition state; those of aggregates with
ORDER BY or DISTINCT are made later. -/
def Addressed (sets : List (Nat × Nat)) (p : PerTrans) (transno setoff transno' : Nat) : Prop :=
  transno' = transno ∧ setoff ∈ sets.map Prod.snd ∧ p.numSortCols = 0

/-- One transition state: it changes in the given sets. -/
def StepsGroups (sets : List (Nat × Nat)) (p : PerTrans) (transno : Nat) (input : Option (List SqlValue))
    (setoff transno' : Nat) (g g' : PerGroup) : Prop :=
  (Addressed sets p transno setoff transno' → RowStep content f p transno input g g') ∧
    (¬ Addressed sets p transno setoff transno' → g' = g)

/-- All transition states from `transno` on. -/
def RowGroups (sets : List (Nat × Nat)) (pertrans : List PerTrans) (transno : Nat)
    (inputs : List (Option (List SqlValue))) (setoff transno' : Nat) (g g' : PerGroup) : Prop :=
  (∀ i p, transno' = transno + i → pertrans[i]? = some p → setoff ∈ sets.map Prod.snd → p.numSortCols = 0 →
    RowStep content f p transno' inputs[i]?.join g g') ∧
  ((setoff ∉ sets.map Prod.snd ∨ ∀ i p, transno' = transno + i → pertrans[i]? = some p → p.numSortCols ≠ 0) → g' = g)

variable {content f} {w : World} {setup : Setup} {p : PerTrans} {transno : Nat}

/-- The arguments are such that the transition function of an aggregate that is not ordered is
called as SQL asks. -/
def Ready (p : PerTrans) (args : List SqlValue) : Prop :=
  p.numSortCols = 0 → (p.transfn.fnStrict && args.any Option.isNone) = false ∧ (p.kind = .initStrict → args ≠ [])

lemma advanceSet_tracks (purity : PureTransitions w content f) {setno setoff : Nat}
    (ready : Ready p args) (pergroups : AllPergroups) :
    Tracks Call.isTransition w
      (fun pergroups' _ => Changes (StepsGroups content f [(setno, setoff)] p transno (some args)) pergroups pergroups')
      (advanceSet w p transno setno setoff args pergroups)
      (if p.numSortCols ≠ 0 ∧ (pergroups setoff).isSome = true then putSorted w p transno setno args else pure ()) := by
  unfold advanceSet
  cases pointer : pergroups setoff with
  | none =>
    rw [if_neg (by simp)]
    refine Tracks.pure (Changes.refl fun setoff' groups pointer' transno' g => ⟨fun addressed => ?_, fun _ => rfl⟩)
    rw [List.mem_singleton.mp addressed.2.1, pointer] at pointer'
    cases pointer'
  | some groups =>
    by_cases plain : p.numSortCols = 0
    · simp only [plain, ne_eq, not_true_eq_false, false_and, if_false, if_true]
      obtain ⟨notNull, given⟩ := ready plain
      refine Tracks.bind (y := pure ()) (g := fun _ => pure ())
        (advanceGroup_tracks purity notNull given) fun g _ same => Tracks.pure (Changes.set pointer ?_ ?_)
      · exact ⟨fun _ => same, fun other => absurd ⟨rfl, List.mem_singleton.mpr rfl, plain⟩ other⟩
      · exact fun setoff' transno' g' other =>
          ⟨fun addressed => absurd ⟨List.mem_singleton.mp addressed.2.1, addressed.1⟩ other, fun _ => rfl⟩
    · simp only [plain, ne_eq, not_false_eq_true, Option.isSome_some, and_self, if_false, if_true]
      have put : Unaware Call.isTransition (putSorted w p transno setno args) :=
        Unaware.bind (Unaware.call purity.unseen _) fun _ => Unaware.pure ()
      suffices sorted : Tracks Call.isTransition w (fun pergroups' _ => Changes
          (StepsGroups content f [(setno, setoff)] p transno (some args)) pergroups pergroups')
          (putSorted w p transno setno args >>= fun _ => pure pergroups) (putSorted w p transno setno args >>= pure) by
        rwa [Eval.bind_pure] at sorted
      refine Tracks.bind (Tracks.of_related put) fun _ _ _ => Tracks.pure (Changes.refl fun setoff' groups _ transno' g => ?_)
      exact ⟨fun addressed => absurd addressed.2.2 plain, fun _ => rfl⟩

lemma advanceSets_tracks (purity : PureTransitions w content f) (ready : Ready p args) :
    ∀ (sets : List (Nat × Nat)) (pergroups : AllPergroups), (sets.map Prod.snd).Nodup →
    Tracks Call.isTransition w
      (fun pergroups' _ => Changes (StepsGroups content f sets p transno (some args)) pergroups pergroups')
      (advanceSets w p transno args sets pergroups)
      (sortSets w p transno args (fun setoff => (pergroups setoff).isSome) sets)
  | [], pergroups, _ => by
    refine Tracks.pure (Changes.refl fun setoff groups _ transno' g => ⟨fun addressed => ?_, fun _ => rfl⟩)
    exact absurd addressed.2.1 List.not_mem_nil
  | (setno, setoff) :: rest, pergroups, distinct => by
    rw [List.map_cons, List.nodup_cons] at distinct
    refine Tracks.bind (advanceSet_tracks purity ready pergroups) fun pergroups1 _ first => ?_
    have pointed : (fun setoff => (pergroups setoff).isSome) = fun setoff => (pergroups1 setoff).isSome :=
      funext fun setoff => (first.pointers setoff).symm
    rw [pointed]
    refine (advanceSets_tracks purity ready rest pergroups1 distinct.2).imp fun pergroups' _ second => ?_
    refine first.trans second fun setoff' transno' g g1 g' step later => ⟨fun addressed => ?_, fun other => ?_⟩
    · by_cases here : setoff' = setoff
      · have done : g' = g1 := later.2 fun again => distinct.1 (here ▸ again.2.1)
        rw [done]
        exact step.1 ⟨addressed.1, List.mem_singleton.mpr here, addressed.2.2⟩
      · have same : g1 = g := step.2 fun first => here (List.mem_singleton.mp first.2.1)
        rw [← same]
        exact later.1 ⟨addressed.1, (List.mem_cons.mp addressed.2.1).resolve_left here, addressed.2.2⟩
    · rw [later.2 fun again => other ⟨again.1, List.mem_cons_of_mem _ again.2.1, again.2.2⟩]
      exact step.2 fun first => other ⟨first.1, List.mem_cons.mpr (Or.inl (List.mem_singleton.mp first.2.1)), first.2.2⟩

lemma listValue_length {slots : SlotName → Slot} {env : Env} : ∀ {args : List Node} {vs : List SqlValue}
    {trace last : List Call}, listValue w slots setup args env trace = .value vs last → vs.length = args.length
  | [], _, _, _, value => by
    cases value
    rfl
  | e :: rest, vs, trace, last, value => by
    change Eval.bind (e.value w slots setup env) (fun x => Eval.bind (listValue w slots setup rest env)
      fun xs => Eval.pure (x :: xs)) trace = .value vs last at value
    simp only [Eval.bind] at value
    split at value
    · rename_i x mid _
      split at value
      · rename_i xs last' later
        cases value
        rw [List.length_cons, listValue_length later, List.length_cons]
      · cases value
      · cases value
    · cases value
    · cases value

lemma listValue_related (unseen : Unseen Call.isTransition w) (slots : SlotName → Slot) (args : List Node) (env : Env) :
    Related Call.isTransition (fun vs vs' => vs = vs' ∧ vs.length = args.length) (listValue w slots setup args env)
      (listValue w slots setup args env) := by
  intro trace trace' same
  have answers := listValue_unaware slots setup unseen args env trace trace' same
  cases value : listValue w slots setup args env trace with
  | value vs last =>
    rw [value] at answers
    obtain ⟨_, last', value', rfl, same⟩ := answers.of_value
    rw [value']
    exact .value ⟨rfl, listValue_length value⟩ same
  | raised e =>
    rw [value] at answers
    generalize listValue w slots setup args env trace' = answer at answers
    cases answers with
    | raised same => exact .raised same
  | notBoolean =>
    rw [value] at answers
    generalize listValue w slots setup args env trace' = answer at answers
    cases answers
    exact .notBoolean

/-- Without ORDER BY and DISTINCT all inputs are arguments of the transition function. -/
lemma PerTrans.Valid.take_args (valid : p.Valid) (length : args.length = p.args.length)
    (plain : p.numSortCols = 0) : args.take p.numTransInputs = args :=
  List.take_of_length_le (Nat.le_of_eq (by rw [length, valid.numInputs, valid.plain plain]))

/-- The arguments that a row has are such as SQL asks for. -/
lemma ready_of_not_skips (valid : p.Valid) (length : args.length = p.args.length)
    (initial : p.numSortCols = 0 → p.kind = .initStrict → 0 < p.numTransInputs) (called : p.skips args = false) :
    Ready p args := by
  intro plain
  have all := valid.take_args length plain
  rw [PerTrans.skips, all] at called
  refine ⟨called, fun kind none => ?_⟩
  have some := initial plain kind
  rw [valid.plain plain, ← valid.numInputs, ← length, none] at some
  exact absurd some (Nat.lt_irrefl 0)

lemma rowStep_skipped (valid : p.Valid) (length : args.length = p.args.length)
    (plain : p.numSortCols = 0) (skipped : p.skips args = true) (g : PerGroup) :
    RowStep content f p transno (some args) g g := by
  have all := valid.take_args length plain
  rw [PerTrans.skips, all] at skipped
  change p.state content g = sqlStep _ _ _ _
  unfold sqlStep
  rw [if_pos (by rw [any_isNone_content, skipped])]

lemma passes_unaware (unseen : Unseen Call.isTransition w) (slots : SlotName → Slot) :
    Unaware Call.isTransition (p.passes w slots setup) := by
  unfold PerTrans.passes
  cases p.aggfilter with
  | none => exact Unaware.pure true
  | some aggfilter => exact Unaware.bind (aggfilter.value_unaware slots setup unseen _) fun v => Unaware.pure _

/-- **The steps for a transition state do what the row does to it.** -/
theorem advanceTrans_tracks (purity : PureTransitions w content f) {phase : AggPhase} {slots : SlotName → Slot}
    (valid : p.Valid) (initial : p.numSortCols = 0 → p.kind = .initStrict → 0 < p.numTransInputs)
    (distinct : (phase.sets.map Prod.snd).Nodup) (pergroups : AllPergroups) :
    Tracks Call.isTransition w
      (fun pergroups' input => Changes (StepsGroups content f phase.sets p transno input) pergroups pergroups')
      (advanceTrans w slots setup phase p transno pergroups)
      (transInput w setup slots phase p transno fun setoff => (pergroups setoff).isSome) := by
  have skipped (input : Option (List SqlValue))
      (same : p.numSortCols = 0 → ∀ g, RowStep content f p transno input g g) :
      Changes (StepsGroups content f phase.sets p transno input) pergroups pergroups :=
    Changes.refl fun setoff groups _ transno' g => ⟨fun addressed => same addressed.2.2 g, fun _ => rfl⟩
  refine Tracks.bind (Tracks.of_related (passes_unaware purity.unseen slots)) ?_
  rintro passes _ rfl
  cases passes with
  | false => exact Tracks.pure (skipped none fun _ _ => rfl)
  | true =>
    rw [if_pos rfl, if_pos rfl]
    refine Tracks.bind (Tracks.of_related (listValue_related purity.unseen slots p.args (.top w))) ?_
    rintro args _ ⟨rfl, length⟩
    cases skips : p.skips args with
    | true => exact Tracks.pure (skipped (some args) fun plain => rowStep_skipped valid length plain skips)
    | false =>
      rw [if_neg Bool.false_ne_true, if_neg Bool.false_ne_true, ← Eval.bind_pure (advanceSets _ _ _ _ _ _)]
      refine Tracks.bind (advanceSets_tracks purity (ready_of_not_skips valid length initial skips) phase.sets
        pergroups distinct) fun pergroups' _ changes => Tracks.pure changes

/-- **The program does to every transition state of the row's groups what the row does to it.** -/
theorem advanceTransValues_tracks (purity : PureTransitions w content f) {phase : AggPhase} {slots : SlotName → Slot}
    (distinct : (phase.sets.map Prod.snd).Nodup) : ∀ (pertrans : List PerTrans) (transno : Nat) (pergroups : AllPergroups),
    (∀ p ∈ pertrans, p.Valid) → (∀ p ∈ pertrans, p.numSortCols = 0 → p.kind = .initStrict → 0 < p.numTransInputs) →
    Tracks Call.isTransition w
      (fun pergroups' inputs => Changes (RowGroups content f phase.sets pertrans transno inputs) pergroups pergroups')
      (advanceTransValues w slots setup phase pertrans transno pergroups)
      (transInputs w setup slots phase (fun setoff => (pergroups setoff).isSome) pertrans transno)
  | [], transno, pergroups, _, _ =>
    Tracks.pure (Changes.refl fun setoff groups _ transno' g => ⟨fun i p _ none => (nomatch none), fun _ => rfl⟩)
  | p :: rest, transno, pergroups, valid, initial => by
    refine Tracks.bind (advanceTrans_tracks purity (valid p List.mem_cons_self) (initial p List.mem_cons_self) distinct
      pergroups) fun pergroups1 input first => ?_
    have pointed : (fun setoff => (pergroups setoff).isSome) = fun setoff => (pergroups1 setoff).isSome :=
      funext fun setoff => (first.pointers setoff).symm
    rw [pointed, ← Eval.bind_pure (advanceTransValues _ _ _ _ _ _ _)]
    refine Tracks.bind (advanceTransValues_tracks purity distinct rest (transno + 1) pergroups1
      (fun p' member => valid p' (List.mem_cons_of_mem p member))
      fun p' member => initial p' (List.mem_cons_of_mem p member)) fun pergroups' inputs second => Tracks.pure ?_
    refine first.trans second fun setoff transno' g g1 g' step later => ⟨fun i q at_ found member plain => ?_, fun out => ?_⟩
    · cases i with
      | zero =>
        cases found
        have done : g' = g1 := later.2 (Or.inr fun i q at' _ => by omega)
        rw [done, at_]
        exact step.1 ⟨at_, member, plain⟩
      | succ i =>
        have same : g1 = g := step.2 fun addressed => by
          have := addressed.1
          omega
        rw [← same]
        exact later.1 i q (by omega) found member plain
    · have same : g1 = g := step.2 fun addressed => by
        rcases out with out | ordered
        · exact out addressed.2.1
        · exact ordered 0 p addressed.1 rfl addressed.2.2
      rw [← same]
      refine later.2 (out.imp id fun ordered i q at_ found => ?_)
      exact ordered (i + 1) q (by omega) found

end Row

end Hex.Compiler
