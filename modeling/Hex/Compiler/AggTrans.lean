/-
# Compiler.AggTrans — what the program of ExecBuildAggTrans does for one row

The program of a phase evaluates, for one transition state after the other, the FILTER and the
arguments, and advances the transition values of the groups that the row belongs to.
`advanceTransValues` is this as an evaluation over `all_pergroups`: the calls of transition
functions, of `ExecAggInitGroup` and of `ExecAggTransReparent` in the order in which they are
made. **`acts_transValues`**: in a phase that does not combine states the code of the program
follows it.
-/
import Hex.Compiler.Effect
import Hex.Compiler.ProgramRun

namespace Hex.Compiler

open Theory.BlockCode

variable {m : Machine}

/-! ## The evaluation -/

/-- `aggstate->all_pergroups`: for each grouping set the transition values of the group of the
row, or a NULL pointer. -/
abbrev AllPergroups := Nat → Option (Nat → PerGroup)

def AllPergroups.set (pergroups : AllPergroups) (setoff transno : Nat) (g : PerGroup) : AllPergroups :=
  Function.update pergroups setoff ((pergroups setoff).map fun groups => Function.update groups transno g)

def PerGroup.sql (g : PerGroup) : SqlValue := NullableDatum.sql { value := g.transValue, isnull := g.transValueIsNull }

/-- `n` grouping sets, with their offsets in `all_pergroups`. -/
def setsFrom : Nat → Nat → Nat → List (Nat × Nat)
  | 0, _, _ => []
  | n + 1, setno, setoff => (setno, setoff) :: setsFrom n (setno + 1) (setoff + 1)

/-- The grouping sets of a phase: the sorted ones, then the hashed ones. -/
def AggPhase.sets (phase : AggPhase) : List (Nat × Nat) :=
  (if phase.doSort then setsFrom (max phase.numsets 1) 0 0 else []) ++
    (if phase.doHash then setsFrom phase.numHashes 0 (if phase.hashed then 0 else phase.maxsets) else [])

section Evaluation

variable (w : World) (slots : SlotName → Slot) (setup : Setup)

/-- `ExecAggPlainTransByVal` and `ExecAggPlainTransByRef`. -/
def callTrans (p : PerTrans) (transno setno : Nat) (args : List SqlValue) (g : PerGroup) : Eval PerGroup :=
  Eval.call w (.transition p.transfn transno setno (g.sql :: args)) >>= fun ds =>
    if !p.transtypeByVal && (returned ds).value != g.transValue then
      Eval.call w (.aggTransReparent transno (returned ds).sql g.sql) >>= fun ds' =>
        pure { g with transValue := (returned ds').value, transValueIsNull := (returned ds).isnull }
    else pure { g with transValue := (returned ds).value, transValueIsNull := (returned ds).isnull }

/-- `ExecAggInitGroup`. -/
def initTrans (transno : Nat) (args : List SqlValue) : Eval PerGroup :=
  match args with
  | arg :: _ =>
    Eval.call w (.aggInitGroup transno arg) >>= fun ds =>
      pure { transValue := (returned ds).value, transValueIsNull := false, noTransValue := false }
  | [] => Eval.raise "malformed arguments"

def advanceGroup (p : PerTrans) (transno setno : Nat) (args : List SqlValue) (g : PerGroup) : Eval PerGroup :=
  match p.kind with
  | .initStrict =>
    if g.noTransValue then initTrans w transno args
    else if g.transValueIsNull then pure g
    else callTrans w p transno setno args g
  | .strict => if g.transValueIsNull then pure g else callTrans w p transno setno args g
  | .plain => callTrans w p transno setno args g

/-- Inputs of an aggregate with ORDER BY or DISTINCT are sorted first. -/
def putSorted (p : PerTrans) (transno setno : Nat) (args : List SqlValue) : Eval Unit :=
  Eval.call w (.helper
    (if p.numInputs = 1 then .aggOrderedTransDatum transno setno else .aggOrderedTransTuple transno setno) args) >>=
    fun _ => pure ()

/-- A transition step for one grouping set; a set with a NULL pointer is left out. -/
def advanceSet (p : PerTrans) (transno setno setoff : Nat) (args : List SqlValue) (pergroups : AllPergroups) :
    Eval AllPergroups :=
  match pergroups setoff with
  | none => pure pergroups
  | some groups =>
    if p.numSortCols = 0 then
      advanceGroup w p transno setno args (groups transno) >>= fun g => pure (pergroups.set setoff transno g)
    else putSorted w p transno setno args >>= fun _ => pure pergroups

def advanceSets (p : PerTrans) (transno : Nat) (args : List SqlValue) :
    List (Nat × Nat) → AllPergroups → Eval AllPergroups
  | [], pergroups => pure pergroups
  | (setno, setoff) :: rest, pergroups =>
    advanceSet w p transno setno setoff args pergroups >>= advanceSets p transno args rest

/-- The FILTER of an aggregate is true for the row. -/
def PerTrans.passes (p : PerTrans) : Eval Bool :=
  match p.aggfilter with
  | none => pure true
  | some aggfilter => aggfilter.value w slots setup (.top w) >>= fun v => pure (v.any datumGetBool)

/-- A strict transition function is not called for NULL. -/
def PerTrans.skips (p : PerTrans) (args : List SqlValue) : Bool :=
  p.transfn.fnStrict && (args.take p.numTransInputs).any Option.isNone

def advanceTrans (phase : AggPhase) (p : PerTrans) (transno : Nat) (pergroups : AllPergroups) : Eval AllPergroups :=
  p.passes w slots setup >>= fun passes =>
    if passes then
      listValue w slots setup p.args (.top w) >>= fun args =>
        if p.skips args then pure pergroups else advanceSets w p transno args phase.sets pergroups
    else pure pergroups

/-- The program for one row, with its slots deformed. -/
def advanceTransValues (phase : AggPhase) : List PerTrans → Nat → AllPergroups → Eval AllPergroups
  | [], _, pergroups => pure pergroups
  | p :: rest, transno, pergroups =>
    advanceTrans w slots setup phase p transno pergroups >>= advanceTransValues phase rest (transno + 1)

end Evaluation

/-! ## What the planner provides -/

/-- What `build_pertrans_for_aggref` makes sure of: without ORDER BY and DISTINCT all inputs are
arguments of the transition function, otherwise the first of them are. The expressions are as the
planner makes them. -/
structure PerTrans.Valid (p : PerTrans) : Prop where
  numInputs : p.args.length = p.numInputs
  plain : p.numSortCols = 0 → p.numTransInputs = p.numInputs
  sorted : p.numTransInputs ≤ p.numInputs
  args : ∀ e ∈ p.args, e.proper = true
  filter : ∀ e, p.aggfilter = some e → e.proper = true

/-- Where the program does not check for NULL pointers there are none. -/
def Pointed (phase : AggPhase) (pergroups : AllPergroups) : Prop :=
  phase.nullcheck = false → ∀ set ∈ phase.sets, (pergroups set.2).isSome = true

def SamePointers (pergroups pergroups' : AllPergroups) : Prop :=
  ∀ setoff, (pergroups' setoff).isSome = (pergroups setoff).isSome

/-- A transition step replaces a transition value and never a pointer. -/
lemma samePointers_set (pergroups : AllPergroups) (setoff transno : Nat) (g : PerGroup) :
    SamePointers pergroups (pergroups.set setoff transno g) := by
  intro setoff'
  by_cases same : setoff' = setoff
  · rw [same, AllPergroups.set, Function.update_self, Option.isSome_map]
  · rw [AllPergroups.set, Function.update_of_ne same]

lemma AllPergroups.set_self {pergroups : AllPergroups} {setoff : Nat} {groups : Nat → PerGroup}
    (pointer : pergroups setoff = some groups) (transno : Nat) :
    pergroups.set setoff transno (groups transno) = pergroups := by
  rw [AllPergroups.set, pointer, Option.map_some, Function.update_eq_self, ← pointer, Function.update_eq_self]

/-! ## Cells -/

namespace PerTrans

variable {p : PerTrans} (transno : Nat)

lemma nodup_inputs (n : Nat) : (inputs transno n).Nodup :=
  List.Pairwise.map _ (fun _ _ ne same => ne (Nat.succ.inj (Cell.trans.inj same).2)) List.nodup_range

lemma nodup_sortCells (n : Nat) : (sortCells transno n).Nodup :=
  List.Pairwise.map _ (fun _ _ ne same => ne (Cell.sort.inj same).2) List.nodup_range

lemma nodup_targets : (p.targets transno).Nodup := by
  unfold targets
  split
  · exact nodup_inputs transno _
  · split
    · exact List.pairwise_singleton _ _
    · exact nodup_sortCells transno _

lemma Valid.length_targets (valid : p.Valid) : (p.targets transno).length = p.args.length := by
  unfold targets
  split
  · rw [inputs, List.length_map, List.length_range]
  · split
    · rename_i single
      rw [valid.numInputs, single, List.length_singleton]
    · rw [sortCells, List.length_map, List.length_range]

lemma state_not_target : Cell.trans transno 0 ∉ p.targets transno := by
  unfold targets
  split
  · simp [inputs]
  · split <;> simp [sortCells]

lemma Valid.strictCells (valid : p.Valid) (some : 0 < p.numTransInputs) :
    p.strictCells false transno = (p.targets transno).take p.numTransInputs := by
  have sub := valid.sorted
  have firsts (f : Nat → Cell) {n : Nat} (le : p.numTransInputs ≤ n) :
      (List.range p.numTransInputs).map f = ((List.range n).map f).take p.numTransInputs := by
    rw [← List.map_take, List.take_range, Nat.min_eq_left le]
  rw [← valid.numInputs] at sub
  unfold PerTrans.strictCells targets
  rw [Bool.false_or]
  by_cases plain : p.numSortCols = 0
  · rw [if_pos (decide_eq_true plain), if_pos plain]
    exact firsts _ sub
  · rw [if_neg (by simpa using plain), if_neg plain]
    split
    · rename_i single
      rw [List.take_of_length_le]
      exact some
    · exact firsts _ sub

lemma Valid.inputs_targets (valid : p.Valid) (plain : p.numSortCols = 0) :
    inputs transno p.numTransInputs = p.targets transno := by
  rw [targets, if_pos plain, valid.plain plain, valid.numInputs]

end PerTrans

/-! ## Steps -/

section Steps

variable {w : World} {setup : Setup} {K : List (Cell × NullableDatum)} {phase : AggPhase} {p : PerTrans} {transno : Nat}

/-- The arguments stay as they are while the transition values are advanced. -/
lemma MemoryFrame.args {m' : Machine} (frame : MemoryFrame (· = .trans transno 0) m m') :
    m'.args (p.targets transno) = m.args (p.targets transno) := by
  refine List.map_congr_left fun c member => ?_
  rw [frame.mem c fun same => PerTrans.state_not_target transno (same ▸ member)]

/-- The machine as a call of the transition function finds it: the first argument is the
transition value. -/
lemma args_setFirst (transno : Nat) (valid : p.Valid) (plain : p.numSortCols = 0) (g : PerGroup) (m : Machine) :
    (m.set (.trans transno 0) { value := g.transValue, isnull := g.transValueIsNull }).args
      (.trans transno 0 :: PerTrans.inputs transno p.numTransInputs) = g.sql :: m.args (p.targets transno) := by
  rw [valid.inputs_targets transno plain, Machine.args, List.map_cons, Machine.mem_set_self]
  congr 1
  refine List.map_congr_left fun c member => ?_
  rw [Machine.mem_set_ne m _ fun same => PerTrans.state_not_target transno (same ▸ member)]

def PerTrans.transCall (p : PerTrans) (transno setno setoff : Nat) : TransCall :=
  { func := p.transfn, byVal := p.transtypeByVal, transno := transno, setno := setno, setoff := setoff
    args := .trans transno 0 :: PerTrans.inputs transno p.numTransInputs }

/-- A step that advances the transition value of a group. -/
def AdvancesGroup (w : World) (op : Op) (setoff transno : Nat) (x : Eval PerGroup) (m : Machine) : Prop :=
  ∀ h, Acts (· = .trans transno 0) m (x m.trace) Through
    (fun g m' => m'.pergroups = AllPergroups.set m.pergroups setoff transno g)
    (eval (interpStep w) ((Gen.step op : Gen 0).piece h).code m)

section Group

variable {op : Op} {setno setoff : Nat} {m : Machine} {groups : Nat → PerGroup}

lemma advances_callTrans (valid : p.Valid) (plain : p.numSortCols = 0)
    (step : interpStep w op m = execAggPlainTrans w (p.transCall transno setno setoff) (groups transno) m) :
    AdvancesGroup w op setoff transno (callTrans w p transno setno (m.args (p.targets transno)) (groups transno)) m := by
  intro h
  have stored := args_setFirst transno valid plain (groups transno) m
  simp only [execAggPlainTrans, invokeTrans, PerTrans.transCall, Machine.setFirst, stored] at step
  have passed : MemoryFrame (· = .trans transno 0) m (m.set (.trans transno 0)
      { value := (groups transno).transValue, isnull := (groups transno).transValueIsNull }) :=
    MemoryFrame.of_frame (Frame.only m _ _)
  refine LeadsTo.started (fun _ => passed.trans) ?_
  refine Acts.call step fun ds called => ?_
  by_cases copied : (!p.transtypeByVal && (returned ds).value != (groups transno).transValue) = true
  · rw [if_pos copied]
    refine Acts.call (called.trans (if_pos copied)) fun ds' called' => ?_
    exact Acts.last (eval_step_next called') rfl ⟨fun _ _ => rfl, rfl⟩ rfl
  · rw [if_neg copied]
    exact Acts.last (eval_step_next (called.trans (if_neg copied))) rfl ⟨fun _ _ => rfl, rfl⟩ rfl

lemma advances_initTrans (valid : p.Valid) (plain : p.numSortCols = 0)
    (step : interpStep w op m = execAggInitGroup w (p.transCall transno setno setoff) m) :
    AdvancesGroup w op setoff transno (initTrans w transno (m.args (p.targets transno))) m := by
  intro h
  simp only [execAggInitGroup, PerTrans.transCall, valid.inputs_targets transno plain] at step
  cases cells : p.targets transno with
  | nil =>
    rw [cells] at step
    change eval (interpStep w) _ m = _
    simp [Gen.step, Gen.jump, eval, step]
  | cons arg rest =>
    rw [cells] at step
    refine Acts.call step fun ds called => ?_
    exact Acts.last (eval_step_next called) rfl ⟨fun _ _ => rfl, rfl⟩ rfl

/-- A NULL transition value of a strict function stays. -/
lemma advances_pure (pointer : m.pergroups setoff = some groups) (step : interpStep w op m = .next m) :
    AdvancesGroup w op setoff transno (pure (groups transno)) m :=
  fun _ => Acts.last (eval_step_next step) rfl (MemoryFrame.refl m) (AllPergroups.set_self pointer transno).symm

lemma advances_group (valid : p.Valid) (plain : p.numSortCols = 0) (pointer : m.pergroups setoff = some groups) :
    AdvancesGroup w (.aggPlainTrans p.kind (p.transCall transno setno setoff)) setoff transno
      (advanceGroup w p transno setno (m.args (p.targets transno)) (groups transno)) m := by
  have step : interpStep w (.aggPlainTrans p.kind (p.transCall transno setno setoff)) m =
      execAggTrans w p.kind (p.transCall transno setno setoff) m := rfl
  have here : m.pergroups (p.transCall transno setno setoff).setoff = some groups := pointer
  unfold execAggTrans at step
  rw [here] at step
  unfold advanceGroup
  cases kind : p.kind with
  | initStrict =>
    rw [kind] at step
    change _ = if (groups transno).noTransValue = true then _ else if (groups transno).transValueIsNull = true then _
      else execAggPlainTrans w _ (groups transno) m at step
    dsimp only
    split at step
    · rename_i missing
      rw [if_pos missing]
      exact advances_initTrans valid plain step
    · rename_i present
      rw [if_neg present]
      split at step
      · rename_i null
        rw [if_pos null]
        exact advances_pure pointer step
      · rename_i notNull
        rw [if_neg notNull]
        exact advances_callTrans valid plain step
  | strict =>
    rw [kind] at step
    change _ = if (groups transno).transValueIsNull = true then _ else execAggPlainTrans w _ (groups transno) m at step
    dsimp only
    split at step
    · rename_i null
      rw [if_pos null]
      exact advances_pure pointer step
    · rename_i notNull
      rw [if_neg notNull]
      exact advances_callTrans valid plain step
  | plain =>
    rw [kind] at step
    exact advances_callTrans valid plain step

end Group

/-- The groups after steps for a transition state. -/
def Advanced (before pergroups : AllPergroups) (m' : Machine) : Prop :=
  m'.pergroups = pergroups ∧ SamePointers before pergroups

lemma acts_transOpcode {setno setoff : Nat} (h : Nat) (valid : p.Valid)
    (pointer : (m.pergroups setoff).isSome = true) :
    Acts (· = .trans transno 0) m
      (advanceSet w p transno setno setoff (m.args (p.targets transno)) m.pergroups m.trace) Through
      (Advanced m.pergroups)
      (eval (interpStep w) ((Gen.step (p.transOpcode transno setno setoff) : Gen 0).piece h).code m) := by
  obtain ⟨groups, pointer⟩ := Option.isSome_iff_exists.mp pointer
  unfold advanceSet
  rw [pointer]
  dsimp only
  by_cases plain : p.numSortCols = 0
  · have opcode : p.transOpcode transno setno setoff = .aggPlainTrans p.kind (p.transCall transno setno setoff) :=
      if_pos plain
    rw [opcode, if_pos plain]
    exact LeadsTo.map (advances_group valid plain pointer h) (fun _ _ => id) fun g m' _ replaced =>
      ⟨replaced, samePointers_set m.pergroups setoff transno g⟩
  · rw [if_neg plain]
    have sorted : interpStep w (p.transOpcode transno setno setoff) m =
        m.call w (.helper (if p.numInputs = 1 then .aggOrderedTransDatum transno setno
          else .aggOrderedTransTuple transno setno) (m.args (p.targets transno))) fun _ m => .next m := by
      unfold PerTrans.transOpcode PerTrans.targets
      rw [if_neg plain, if_neg plain]
      split
      · rfl
      · rw [valid.numInputs]
        rfl
    unfold putSorted
    rw [Eval.bind_assoc]
    refine Acts.call sorted fun ds called => ?_
    exact Acts.last (eval_step_next called) rfl ⟨fun _ _ => rfl, rfl⟩ ⟨rfl, fun _ => rfl⟩

lemma acts_transCall {setno setoff h : Nat} {nullcheck : Bool} (valid : p.Valid)
    (pointed : nullcheck = false → (m.pergroups setoff).isSome = true) :
    Acts (· = .trans transno 0) m
      (advanceSet w p transno setno setoff (m.args (p.targets transno)) m.pergroups m.trace) Through
      (Advanced m.pergroups)
      (eval (interpStep w) ((genTransCall nullcheck p transno setno setoff).piece h).code m) := by
  unfold genTransCall
  cases nullcheck with
  | false => exact acts_transOpcode h valid (pointed rfl)
  | true =>
    rw [if_pos rfl]
    have check : interpStep w (.aggPlainPergroupNullcheck setoff) m = match m.pergroups setoff with
        | none => .jump 0 m
        | some _ => .next m := rfl
    refine LeadsTo.block ?_
    cases pointer : m.pergroups setoff with
    | none =>
      rw [pointer] at check
      unfold advanceSet
      rw [pointer]
      exact LeadsTo.leaves (eval_jump_exit check rfl) 
        (Acts.last (Or.inr rfl) rfl (MemoryFrame.refl m) ⟨rfl, fun _ => rfl⟩)
    | some groups =>
      rw [pointer] at check
      have isSome : (m.pergroups setoff).isSome = true := by rw [pointer, Option.isSome_some]
      refine Acts.before (eval_jump_next check) (MemoryFrame.refl m) ?_
      exact LeadsTo.imp (acts_transOpcode h valid isSome) (fun _ _ => Or.inl) fun _ _ _ => id

lemma acts_transCalls {nullcheck : Bool} (valid : p.Valid) : ∀ (n setno setoff h : Nat) (m : Machine),
    (nullcheck = false → ∀ set ∈ setsFrom n setno setoff, (m.pergroups set.2).isSome = true) →
    Acts (· = .trans transno 0) m
      (advanceSets w p transno (m.args (p.targets transno)) (setsFrom n setno setoff) m.pergroups m.trace) Through
      (Advanced m.pergroups)
      (eval (interpStep w) ((genTransCalls nullcheck p transno n setno setoff).piece h).code m)
  | 0, _, _, _, m, _ => Acts.last rfl rfl (MemoryFrame.refl m) ⟨rfl, fun _ => rfl⟩
  | n + 1, setno, setoff, h, m, pointed => by
    rw [setsFrom, advanceSets]
    refine Acts.seq (acts_transCall valid fun unchecked => pointed unchecked _ List.mem_cons_self) (fun _ => id) ?_
    rintro pergroups m1 frame ⟨rfl, same⟩
    have later := acts_transCalls valid n (setno + 1) (setoff + 1)
      ((genTransCall nullcheck p transno setno setoff).piece h).heap m1 fun unchecked set member => by
        rw [same]
        exact pointed unchecked set (List.mem_cons_of_mem _ member)
    rw [frame.args] at later
    refine LeadsTo.imp later (fun _ _ => id) fun pergroups' m' _ advanced => ⟨advanced.1, fun setoff' => ?_⟩
    exact (advanced.2 setoff').trans (same setoff')

lemma advanceSets_append {args : List SqlValue} (first second : List (Nat × Nat)) (pergroups : AllPergroups) :
    advanceSets w p transno args (first ++ second) pergroups =
      advanceSets w p transno args first pergroups >>= advanceSets w p transno args second := by
  induction first generalizing pergroups with
  | nil => rfl
  | cons set rest ih =>
    rw [List.cons_append, advanceSets, advanceSets, Eval.bind_assoc]
    congr 1
    funext pergroups'
    exact ih pergroups'

lemma acts_transitions (transno h : Nat) (valid : p.Valid) (pointed : Pointed phase m.pergroups) :
    Acts (· = .trans transno 0) m
      (advanceSets w p transno (m.args (p.targets transno)) phase.sets m.pergroups m.trace) Through
      (Advanced m.pergroups) (eval (interpStep w) ((genTransitions phase p transno).piece h).code m) := by
  have calls (chosen : Bool) (n setno setoff h : Nat) (m : Machine)
      (pointed : phase.nullcheck = false → ∀ set ∈ (if chosen then setsFrom n setno setoff else []),
        (m.pergroups set.2).isSome = true) :
      Acts (· = .trans transno 0) m
        (advanceSets w p transno (m.args (p.targets transno)) (if chosen then setsFrom n setno setoff else [])
          m.pergroups m.trace) Through (Advanced m.pergroups)
        (eval (interpStep w)
          ((if chosen then genTransCalls phase.nullcheck p transno n setno setoff else .nop : Gen 0).piece h).code m) := by
    cases chosen with
    | true => exact acts_transCalls valid n setno setoff h m pointed
    | false => exact Acts.last rfl rfl (MemoryFrame.refl m) ⟨rfl, fun _ => rfl⟩
  rw [AggPhase.sets, advanceSets_append]
  refine Acts.seq (calls phase.doSort _ 0 0 h m fun unchecked set member =>
    pointed unchecked set (List.mem_append_left _ member)) (fun _ => id) ?_
  rintro pergroups m1 frame ⟨rfl, same⟩
  have later := calls phase.doHash phase.numHashes 0 (if phase.hashed then 0 else phase.maxsets)
    ((if phase.doSort then genTransCalls phase.nullcheck p transno (max phase.numsets 1) 0 0 else .nop : Gen 0).piece h).heap
    m1 fun unchecked set member => by
      rw [same]
      exact pointed unchecked set (List.mem_append_right _ member)
  rw [frame.args] at later
  refine LeadsTo.imp later (fun _ _ => id) fun pergroups' m' _ advanced => ⟨advanced.1, fun setoff' => ?_⟩
  exact (advanced.2 setoff').trans (same setoff')

/-! ## Transition states -/

/-- The code runs through, or leaves the block for a row that is left out. -/
def Guards (passes : Bool) (m' : Machine) (r : Result Machine Raised) : Prop :=
  r = if passes then .next m' else .exit 0 m'

lemma AggCell.older {c : Cell} (inside : AggCell c) (h : Nat) : Older h c :=
  (room_aggCells h 0).written c inside

def KeepsGroups {α : Type} (m : Machine) (_ : α) (m' : Machine) : Prop := m'.pergroups = m.pergroups

lemma interpStep_filter {v : SqlValue} (value : (m.mem .result).sql = v) :
    interpStep w (.jumpIfNotTrue .result) m = if v.any datumGetBool then .next m else .jump 0 m := by
  have step : interpStep w (.jumpIfNotTrue .result) m =
      if (m.mem .result).isnull || !datumGetBool (m.mem .result).value then .jump 0 m else .next m := rfl
  rw [step]
  cases v with
  | none => simp [NullableDatum.sql_eq_none.mp value]
  | some d =>
    obtain ⟨null, rfl⟩ := NullableDatum.sql_eq_some.mp value
    cases truth : datumGetBool (m.mem .result).value <;> simp [null, truth]

lemma acts_aggFilter {h : Nat} (valid : p.Valid)
    (loaded : Loaded K m) (relies : (genAggFilter setup false p).Relies K h) :
    Acts (fun _ => True) m (p.passes w m.slots setup m.trace) Guards
      (KeepsGroups m) (eval (interpStep w) ((genAggFilter setup false p).piece h).code m) := by
  unfold genAggFilter at relies ⊢
  unfold PerTrans.passes
  cases filter : p.aggfilter with
  | none => exact Acts.last rfl rfl (MemoryFrame.refl m) rfl
  | some aggfilter =>
    simp only [filter, Bool.false_eq_true, if_false, Gen.relies_seq] at relies ⊢
    have evaluated := aggfilter.computes_top (w := w) (valid.filter aggfilter filter) loaded relies.1
    refine Acts.seq (Acts.of_computes evaluated) (fun _ _ => trivial) fun v m1 frame held => ?_
    have step := interpStep_filter (w := w) held.1
    refine Acts.last ?_ rfl (MemoryFrame.refl m1) held.2.2
    unfold Guards
    split at step
    · rename_i passes
      rw [if_pos passes]
      exact eval_jump_next step
    · rename_i fails
      rw [if_neg fails]
      exact eval_jump_exit step rfl

/-- The code of the arguments puts them where the transition step finds them. -/
lemma acts_aggArgs (transno : Nat) {h : Nat} (valid : p.Valid)
    (loaded : Loaded K m) (relies : (genAggArgs setup false p transno).Relies K h) :
    Acts (fun _ => True) m (listValue w m.slots setup p.args (.top w) m.trace) Through
      (fun args m' => m'.args (p.targets transno) = args ∧ KeepsGroups m args m')
      (eval (interpStep w) ((genAggArgs setup false p transno).piece h).code m) := by
  have all : ∀ e ∈ p.args, Evaluates w m.slots setup true e := fun e member =>
    (e.implements w m.slots setup (valid.args e member)).evaluates fun _ => rfl
  have filled := fillsCells_array p.args all (.top loaded) (valid.length_targets transno)
    (PerTrans.nodup_targets transno) (fun c member => (targets_aggCell p transno c member).older h)
    (fun c holds => holds.elim (fun read => nomatch read.2) nofun) relies
  exact (LeadsTo.imp (Acts.of_computes filled) (fun _ _ => id) fun args m' _ held => ⟨held.1, held.2.2⟩).mono
    fun m' frame => frame.mono fun _ _ => trivial

/-- The check of a strict function leaves the block for a row with NULL arguments. -/
lemma eval_strictCheck (transno h : Nat) (m : Machine) (valid : p.Valid) :
    Guards (!p.skips (m.args (p.targets transno))) m
      (eval (interpStep w) ((genStrictCheck false p transno).piece h).code m) := by
  unfold genStrictCheck PerTrans.skips Guards
  by_cases strict : p.transfn.fnStrict = true
  · by_cases some : p.numTransInputs > 0
    · have args : m.args (p.strictCells false transno) = (m.args (p.targets transno)).take p.numTransInputs := by
        rw [valid.strictCells transno some, Machine.args, Machine.args, List.map_take]
      have step : interpStep w (.aggStrictInputCheck (p.strictCells false transno)) m =
          if ((m.args (p.targets transno)).take p.numTransInputs).any Option.isNone then .jump 0 m else .next m := by
        rw [← args, ← anyArgNull_eq]
        rfl
      rw [strict, if_pos (by simp [some]), Bool.true_and]
      split at step
      · rename_i null
        rw [null]
        exact eval_jump_exit step rfl
      · rename_i notNull
        rw [Bool.eq_false_iff.mpr notNull]
        exact eval_jump_next step
    · have none : p.numTransInputs = 0 := Nat.eq_zero_of_not_pos some
      simp [none, Gen.nop, eval]
  · simp [strict, Gen.nop, eval]

/-- Code behind a guard is run for the rows that are not left out. -/
lemma LeadsTo.guard {α : Type} {F F' : Machine → Machine → Prop} {a b : Code Op} {x : Eval Bool}
    {yes no : Eval α} {mid : Bool → Machine → Prop} {post : α → Machine → Prop}
    (first : LeadsTo F' m (x m.trace) Guards mid (eval (interpStep w) a m))
    (trans : ∀ m1 m', F' m m1 → F m1 m' → F m m')
    (second : ∀ m1, F' m m1 → eval (interpStep w) a m = .next m1 → mid true m1 →
      LeadsTo F m1 (yes m1.trace) Closes post (eval (interpStep w) b m1))
    (leave : ∀ m1, F' m m1 → mid false m1 → LeadsTo F m1 (no m1.trace) Closes post (.exit 0 m1)) :
    LeadsTo F m ((x >>= fun passes => if passes then yes else no) m.trace) Closes post
      (eval (interpStep w) (.seq a b) m) := by
  refine LeadsTo.bind first trans (fun e failed => by simp only [eval, failed]) fun passes m1 ran frame held => ?_
  cases passes with
  | true =>
    have ran : eval (interpStep w) a m = .next m1 := ran
    simp only [eval, ran]
    exact second m1 frame ran held
  | false =>
    have ran : eval (interpStep w) a m = .exit 0 m1 := ran
    simp only [eval, ran]
    exact leave m1 frame held

lemma advanced_same {pergroups : AllPergroups} {W : Cell → Prop} {r : Result Machine Raised}
    (ends : Closes pergroups m r) (same : m.pergroups = pergroups) :
    Acts W m ((pure pergroups : Eval AllPergroups) m.trace) Closes (Advanced pergroups) r :=
  Acts.last ends rfl (MemoryFrame.refl m) ⟨same, fun _ => rfl⟩

/-- **The code of a transition state advances the groups of the row.** -/
theorem acts_trans {h : Nat} (valid : p.Valid) (plain : phase.isCombine = false)
    (pointed : Pointed phase m.pergroups) (loaded : Loaded K m) (relies : (genTrans setup phase p transno).Relies K h) :
    Acts (fun _ => True) m
      (advanceTrans w m.slots setup phase p transno m.pergroups m.trace) Through (Advanced m.pergroups)
      (eval (interpStep w) ((genTrans setup phase p transno).piece h).code m) := by
  unfold genTrans at relies ⊢
  rw [plain] at relies ⊢
  simp only [Gen.relies_block, Gen.relies_seq] at relies
  refine LeadsTo.block (LeadsTo.guard (acts_aggFilter valid loaded relies.1) (fun _ _ => MemoryFrame.trans) ?_ ?_)
  · intro m1 frame ran kept
    have evaluated := acts_aggArgs (w := w) transno valid (relies.1.loaded loaded ran) relies.2.1
    rw [frame.slots] at evaluated
    refine Acts.seq evaluated (fun _ => id) ?_
    · rintro args m2 frame' ⟨rfl, kept'⟩
      have groups : m2.pergroups = m.pergroups := Eq.trans kept' kept
      have check := eval_strictCheck (w := w) transno
        ((genAggArgs setup false p transno).piece ((genAggFilter setup false p).piece h).heap).heap m2 valid
      rw [← groups]
      cases skips : p.skips (m2.args (p.targets transno)) with
      | true =>
        rw [skips] at check
        exact LeadsTo.leaves check (advanced_same (Or.inr rfl) rfl)
      | false =>
        rw [skips] at check
        refine Acts.before check (MemoryFrame.refl m2) ?_
        have advanced := acts_transitions (w := w) transno ((genStrictCheck false p transno).piece
            ((genAggArgs setup false p transno).piece ((genAggFilter setup false p).piece h).heap).heap).heap
          valid (groups ▸ pointed : Pointed phase m2.pergroups)
        exact (LeadsTo.imp advanced (fun _ _ => Or.inl) fun _ _ _ => id).mono fun m' frame =>
          frame.mono fun _ _ => trivial
  · intro m1 frame kept
    exact kept ▸ advanced_same (Or.inr rfl) rfl

lemma SamePointers.pointed {pergroups pergroups' : AllPergroups} (same : SamePointers pergroups pergroups')
    (pointed : Pointed phase pergroups) : Pointed phase pergroups' := by
  intro unchecked set member
  rw [same]
  exact pointed unchecked set member

/-- **The program advances the groups of the row, for one transition state after the other.** -/
theorem acts_transValues (plain : phase.isCombine = false) : ∀ (pertrans : List PerTrans) (transno h : Nat) (m : Machine),
    (∀ p ∈ pertrans, p.Valid) → Pointed phase m.pergroups →
    Loaded K m → (genTransValues setup phase pertrans transno).Relies K h →
    Acts (fun _ => True) m
      (advanceTransValues w m.slots setup phase pertrans transno m.pergroups m.trace) Through (Advanced m.pergroups)
      (eval (interpStep w) ((genTransValues setup phase pertrans transno).piece h).code m)
  | [], _, _, m, _, _, _, _ => Acts.last rfl rfl (MemoryFrame.refl m) ⟨rfl, fun _ => rfl⟩
  | p :: rest, transno, h, m, valid, pointed, loaded, relies => by
    obtain ⟨reliesFirst, reliesRest⟩ := Gen.relies_seq.mp relies
    have first := acts_trans (w := w) (valid p List.mem_cons_self) plain pointed loaded reliesFirst
    rw [advanceTransValues]
    refine Acts.seq (LeadsTo.through first) (fun _ => id) ?_
    rintro pergroups m1 frame ⟨⟨rfl, same⟩, ran⟩
    have later := acts_transValues plain rest (transno + 1) ((genTrans setup phase p transno).piece h).heap m1
      (fun p' member => valid p' (List.mem_cons_of_mem p member)) (same.pointed pointed)
      (reliesFirst.loaded loaded ran) reliesRest
    rw [frame.slots] at later
    exact LeadsTo.imp later (fun _ _ => id) fun pergroups' m' _ advanced =>
      ⟨advanced.1, fun setoff => (advanced.2 setoff).trans (same setoff)⟩

end Steps

end Hex.Compiler
