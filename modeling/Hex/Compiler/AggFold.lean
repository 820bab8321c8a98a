/-
# Compiler.AggFold — aggregation is the fold of SQL

`nodeAgg.c` points `all_pergroups` to the groups of a row and runs the program of
`ExecBuildAggTrans`, once per row. **`execBuildAggTrans_folds`**: in a phase that does not combine
states this leaves in every group the fold of `sqlStep` over the arguments of its rows, and
everything else as it was.
-/
import Hex.Compiler.AggStep

namespace Hex.Compiler

open Theory.BlockCode

/-! ## Rows -/

/-- An input row: its slots, and the group that it belongs to in the grouping set at an offset of
`all_pergroups`, unless the pointer there is NULL. -/
structure AggRow (Key : Type) where
  slots : SlotName → Slot
  pointer : Nat → Option Key

/-- The transition values of all groups of all grouping sets. -/
abbrev GroupStore (Key : Type) := Nat → Key → Nat → PerGroup

section Rows

variable {Key : Type} [DecidableEq Key]

/-- `all_pergroups` points to the groups of the row. -/
def AggRow.load (row : AggRow Key) (store : GroupStore Key) : AllPergroups :=
  fun setoff => (row.pointer setoff).map (store setoff)

/-- The groups after the row: what the pointers point to has changed. -/
def AggRow.save (row : AggRow Key) (store : GroupStore Key) (pergroups : AllPergroups) : GroupStore Key :=
  fun setoff key =>
    if row.pointer setoff = some key then (pergroups setoff).getD (store setoff key) else store setoff key

def advanceAggregates (w : World) (steps : List Step) :
    List (AggRow Key) → Machine → GroupStore Key → Outcome (Machine × GroupStore Key) Raised
  | [], m, store => .finished (m, store)
  | row :: rest, m, store =>
    match execInterpExpr w steps { m with slots := row.slots, pergroups := row.load store } with
    | .finished m' => advanceAggregates w steps rest m' (row.save store m'.pergroups)
    | .failed e => .failed e
    | .running => .running
    | .stuck => .stuck

section Evaluation

variable (w : World) (setup : Setup) (phase : AggPhase) (pertrans : List PerTrans)

def advanceRow (row : AggRow Key) (store : GroupStore Key) : Eval AllPergroups :=
  (Source.aggTrans phase pertrans).deform w setup row.slots >>= fun slots =>
    advanceTransValues w slots setup phase pertrans 0 (row.load store)

def advanceRows : List (AggRow Key) → GroupStore Key → Eval (GroupStore Key)
  | [], store => pure store
  | row :: rest, store =>
    advanceRow w setup phase pertrans row store >>= fun pergroups => advanceRows rest (row.save store pergroups)

/-- The arguments that a row has for the transition states. -/
def rowInputs (row : AggRow Key) : Eval (List (Option (List SqlValue))) :=
  (Source.aggTrans phase pertrans).deform w setup row.slots >>= fun slots =>
    transInputs w setup slots phase (fun setoff => (row.pointer setoff).isSome) pertrans 0

/-- The arguments of all rows: FILTER and argument expressions are evaluated from row to row. -/
def rowsInputs : List (AggRow Key) → Eval (List (List (Option (List SqlValue))))
  | [] => pure []
  | row :: rest =>
    rowInputs w setup phase pertrans row >>= fun inputs => rowsInputs rest >>= fun later => pure (inputs :: later)

end Evaluation

/-- The arguments for a transition state of the rows of a group for which the FILTER is true. -/
def groupArgs (rows : List (AggRow Key)) (inputs : List (List (Option (List SqlValue)))) (setoff : Nat) (key : Key)
    (transno : Nat) : List (List SqlValue) :=
  (rows.zip inputs).filterMap fun rowInput =>
    if rowInput.1.pointer setoff = some key then rowInput.2[transno]?.join else none

lemma groupArgs_cons (row : AggRow Key) (rows : List (AggRow Key)) (input : List (Option (List SqlValue)))
    (inputs : List (List (Option (List SqlValue)))) (setoff : Nat) (key : Key) (transno : Nat) :
    groupArgs (row :: rows) (input :: inputs) setoff key transno =
      (if row.pointer setoff = some key then input[transno]?.join.toList else []) ++
        groupArgs rows inputs setoff key transno := by
  unfold groupArgs
  rw [List.zip_cons_cons]
  by_cases pointer : row.pointer setoff = some key
  · cases given : input[transno]?.join <;> simp [pointer, given]
  · simp [pointer]

/-- **The SQL fold** of a transition state over the rows of a group. -/
def sqlFold {V : Type} (content : Datum → V) (strict : Bool) (f : Option V → List (Option V) → Option V)
    (init : TransState V) (rows : List (List SqlValue)) : TransState V :=
  rows.foldl (fun s args => sqlStep strict f s (args.map (Option.map content))) init

end Rows

/-! ## What the rows do to the groups -/

section Fold

variable {V Key : Type} [DecidableEq Key] (content : Datum → V) (f : Nat → Option V → List (Option V) → Option V)
  (phase : AggPhase) (pertrans : List PerTrans) {row : AggRow Key} {pergroups : AllPergroups}

/-- The transition values of aggregates that are not ordered are the folds over the rows of their
groups; where no row belongs to a group, and for ordered aggregates, they are as before. -/
structure Folded (rows : List (AggRow Key)) (inputs : List (List (Option (List SqlValue))))
    (store store' : GroupStore Key) : Prop where
  fold : ∀ setoff key transno p, setoff ∈ phase.sets.map Prod.snd → pertrans[transno]? = some p → p.numSortCols = 0 →
    p.state content (store' setoff key transno) = sqlFold content p.transfn.fnStrict (f transno)
      (p.state content (store setoff key transno)) (groupArgs rows inputs setoff key transno)
  other : ∀ setoff key transno, (setoff ∉ phase.sets.map Prod.snd ∨ (∀ row ∈ rows, row.pointer setoff ≠ some key) ∨
    ∀ p, pertrans[transno]? = some p → p.numSortCols ≠ 0) → store' setoff key transno = store setoff key transno

variable {content f phase pertrans} {w : World} {setup : Setup}

lemma save_here {store : GroupStore Key} {G : Nat → Nat → PerGroup → PerGroup → Prop}
    (changes : Changes G (row.load store) pergroups) {setoff : Nat} {key : Key}
    (pointer : row.pointer setoff = some key) (transno : Nat) :
    G setoff transno (store setoff key transno) (row.save store pergroups setoff key transno) := by
  have changed := changes setoff
  rw [AggRow.load, pointer, Option.map_some] at changed
  rw [AggRow.save, if_pos pointer]
  generalize pergroups setoff = groups at changed
  cases changed with
  | some changed => exact changed transno

lemma save_other {store : GroupStore Key} {setoff : Nat} {key : Key}
    (pointer : row.pointer setoff ≠ some key) : row.save store pergroups setoff key = store setoff key :=
  if_neg pointer

lemma Folded.cons {rows : List (AggRow Key)} {input : List (Option (List SqlValue))}
    {inputs : List (List (Option (List SqlValue)))} {store store' : GroupStore Key}
    (first : Changes (RowGroups content f phase.sets pertrans 0 input) (row.load store) pergroups)
    (later : Folded content f phase pertrans rows inputs (row.save store pergroups) store') :
    Folded content f phase pertrans (row :: rows) (input :: inputs) store store' := by
  refine ⟨fun setoff key transno p member found plain => ?_, fun setoff key transno out => ?_⟩
  · rw [later.fold setoff key transno p member found plain, groupArgs_cons]
    by_cases pointer : row.pointer setoff = some key
    · have step := (save_here first pointer transno).1 transno p (Nat.zero_add transno).symm found member plain
      rw [if_pos pointer]
      cases given : input[transno]?.join with
      | none =>
        rw [given] at step
        rw [show row.save store pergroups setoff key transno = store setoff key transno from step]
        rfl
      | some args =>
        rw [given] at step
        rw [show p.state content (row.save store pergroups setoff key transno) = _ from step]
        rfl
    · rw [if_neg pointer, save_other pointer]
      rfl
  · rw [later.other setoff key transno (out.imp id (Or.imp
      (fun none row' member => none row' (List.mem_cons_of_mem row member)) id))]
    by_cases pointer : row.pointer setoff = some key
    · refine (save_here first pointer transno).2 ?_
      rcases out with out | out | ordered
      · exact Or.inl out
      · exact absurd pointer (out row List.mem_cons_self)
      · refine Or.inr fun i p at_ found => ordered p ?_
        rw [at_, Nat.zero_add]
        exact found
    · rw [save_other pointer]

lemma getSomeAttrs_unaware {hidden : Call → Bool} (unseen : Unseen hidden w) (slot : SlotName) (lastVar : Nat)
    (slots : SlotName → Slot) : Unaware hidden (getSomeAttrs w slot lastVar slots) :=
  Unaware.ite (Unaware.bind (Unaware.call unseen _) fun _ => Unaware.pure _) (Unaware.pure slots)

lemma Source.deform_unaware {hidden : Call → Bool} (unseen : Unseen hidden w) (src : Source)
    (slots : SlotName → Slot) : Unaware hidden (src.deform w setup slots) := by
  have slot (virtual : Bool) (slot : SlotName) (lastVar : Nat) (slots : SlotName → Slot) :
      Unaware hidden (deformSlot w virtual slot lastVar slots) :=
    Unaware.ite (Unaware.pure slots) (getSomeAttrs_unaware unseen slot lastVar slots)
  exact Unaware.bind (slot _ .inner _ slots) fun slots => Unaware.bind (slot _ .outer _ slots) fun slots =>
    slot _ .scan _ slots

section Tracks

variable (purity : PureTransitions w content f) (distinct : (phase.sets.map Prod.snd).Nodup)
  (valid : ∀ p ∈ pertrans, p.Valid)
  (initial : ∀ p ∈ pertrans, p.numSortCols = 0 → p.kind = .initStrict → 0 < p.numTransInputs)

include purity distinct valid initial

omit [DecidableEq Key] in
lemma advanceRow_tracks (row : AggRow Key) (store : GroupStore Key) : Tracks Call.isTransition w
      (fun pergroups input => Changes (RowGroups content f phase.sets pertrans 0 input) (row.load store) pergroups)
      (advanceRow w setup phase pertrans row store) (rowInputs w setup phase pertrans row) := by
  refine Tracks.bind (Tracks.of_related (Source.deform_unaware purity.unseen _ row.slots)) ?_
  rintro slots _ rfl
  have tracks : Tracks _ w _ (advanceTransValues w slots setup phase pertrans 0 (row.load store)) _ :=
    advanceTransValues_tracks purity distinct pertrans 0 (row.load store) valid initial
  have pointed : (fun setoff => (row.load store setoff).isSome) = fun setoff => (row.pointer setoff).isSome :=
    funext fun setoff => Option.isSome_map
  rwa [pointed] at tracks

/-- **The rows, one after the other, fold the transition states.** -/
theorem advanceRows_tracks : ∀ (rows : List (AggRow Key)) (store : GroupStore Key),
    Tracks Call.isTransition w (fun store' inputs => Folded content f phase pertrans rows inputs store store')
      (advanceRows w setup phase pertrans rows store) (rowsInputs w setup phase pertrans rows)
  | [], store => Tracks.pure ⟨fun _ _ _ _ _ _ _ => rfl, fun _ _ _ _ => rfl⟩
  | row :: rest, store => by
    refine Tracks.bind (advanceRow_tracks purity distinct valid initial row store) fun pergroups input first => ?_
    rw [← Eval.bind_pure (advanceRows _ _ _ _ _ _)]
    exact Tracks.bind (advanceRows_tracks rest (row.save store pergroups)) fun store' inputs later =>
      Tracks.pure (Folded.cons first later)

end Tracks

/-! ## The program, once per row -/

/-- What the program of a phase relies on is in memory. -/
def AggLoaded (setup : Setup) (phase : AggPhase) (pertrans : List PerTrans) (m : Machine) : Prop :=
  Loaded (((Source.aggTrans phase pertrans).body setup).piece 0).constants m

/-- The run for one row follows the evaluation for it, and can be repeated for the next row. -/
lemma execBuildAggTrans_row (plain : phase.isCombine = false) (valid : ∀ p ∈ pertrans, p.Valid) {m : Machine}
    (pointed : Pointed phase m.pergroups) (loaded : AggLoaded setup phase pertrans m) :
    OutcomeOf (fun _ _ => True) m (((Source.aggTrans phase pertrans).deform w setup m.slots >>= fun slots =>
        advanceTransValues w slots setup phase pertrans 0 m.pergroups) m.trace)
      (fun pergroups m' => m'.pergroups = pergroups ∧ AggLoaded setup phase pertrans m')
      (execInterpExpr w (execBuildAggTrans setup phase pertrans).steps m) := by
  have built : (Source.aggTrans phase pertrans).build setup = some (execBuildAggTrans setup phase pertrans) := rfl
  refine execInterpExpr_outcome (F := fun _ _ => True) built fun slots trace => ?_
  have relies := (Source.aggTrans phase pertrans).body_relies setup 0
  have body := acts_transValues (w := w) plain pertrans 0 0 (m.deformed slots trace) valid pointed loaded relies
  refine (LeadsTo.imp body.through (fun _ _ => id) fun pergroups m' _ held => ?_).mono fun _ _ => trivial
  exact ⟨held.1.1, relies.loaded (m := m.deformed slots trace) loaded held.2⟩

/-- Running the program once per row follows the evaluation of the rows. -/
lemma advanceAggregates_outcome (plain : phase.isCombine = false) (valid : ∀ p ∈ pertrans, p.Valid) :
    ∀ (rows : List (AggRow Key)) (m : Machine) (store : GroupStore Key),
    (∀ row ∈ rows, phase.nullcheck = false → ∀ set ∈ phase.sets, (row.pointer set.2).isSome = true) →
    AggLoaded setup phase pertrans m →
    match advanceRows w setup phase pertrans rows store m.trace with
    | .value store' trace => ∃ m', m'.trace = trace ∧
        advanceAggregates w (execBuildAggTrans setup phase pertrans).steps rows m store = .finished (m', store')
    | .raised e => advanceAggregates w (execBuildAggTrans setup phase pertrans).steps rows m store = .failed e
    | .notBoolean => True
  | [], m, store, _, _ => ⟨m, rfl, rfl⟩
  | row :: rest, m, store, pointed, loaded => by
    have here : Pointed phase (row.load store) := fun unchecked set member => by
      rw [AggRow.load, Option.isSome_map]
      exact pointed row List.mem_cons_self unchecked set member
    have outcome := execBuildAggTrans_row (w := w) (m := { m with slots := row.slots, pergroups := row.load store })
      plain valid here loaded
    change OutcomeOf _ _ (advanceRow w setup phase pertrans row store m.trace) _ _ at outcome
    simp only [advanceRows, advanceAggregates]
    change match Eval.bind (advanceRow w setup phase pertrans row store)
      (fun pergroups => advanceRows w setup phase pertrans rest (row.save store pergroups)) m.trace with
      | .value store' trace => _
      | .raised e => _
      | .notBoolean => _
    simp only [Eval.bind]
    cases answered : advanceRow w setup phase pertrans row store m.trace with
    | value pergroups trace =>
      rw [answered] at outcome
      obtain ⟨m', finished, rfl, _, rfl, kept⟩ := outcome
      rw [finished]
      exact advanceAggregates_outcome plain valid rest m' _
        (fun row' member => pointed row' (List.mem_cons_of_mem row member)) kept
    | raised e =>
      rw [answered] at outcome
      rw [show execInterpExpr _ _ _ = .failed e from outcome]
    | notBoolean => trivial

/-- A phase has each grouping set once: where there are sorted and hashed sets, the hashed ones come
behind `maxsets`, of which the sorted ones are at most. -/
def AggPhase.Separate (phase : AggPhase) : Prop :=
  phase.doSort = true → phase.doHash = true → phase.hashed = false ∧ max phase.numsets 1 ≤ phase.maxsets

lemma setsFrom_offsets : ∀ n setno setoff, (setsFrom n setno setoff).map Prod.snd = List.range' setoff n
  | 0, _, _ => rfl
  | n + 1, setno, setoff => by
    rw [setsFrom, List.map_cons, setsFrom_offsets n (setno + 1) (setoff + 1), List.range'_succ]

lemma AggPhase.Separate.nodup (separate : phase.Separate) : (phase.sets.map Prod.snd).Nodup := by
  unfold AggPhase.sets
  rw [List.map_append]
  cases sort : phase.doSort with
  | false =>
    cases phase.doHash with
    | false => exact List.nodup_nil
    | true =>
      simp only [if_false, if_true, List.map_nil, List.nil_append, Bool.false_eq_true, setsFrom_offsets]
      exact List.nodup_range'
  | true =>
    cases hash : phase.doHash with
    | false =>
      simp only [if_false, if_true, List.map_nil, List.append_nil, Bool.false_eq_true, setsFrom_offsets]
      exact List.nodup_range'
    | true =>
      obtain ⟨mixed, le⟩ := separate sort hash
      simp only [mixed, if_false, if_true, Bool.false_eq_true, setsFrom_offsets]
      refine List.nodup_append.mpr ⟨List.nodup_range', List.nodup_range', fun a first b second same => ?_⟩
      rw [List.mem_range'_1] at first second
      omega

/-- **Aggregation is the fold of SQL.** In a phase that does not combine states, let the program of
`ExecBuildAggTrans` be run once per row, and let transition functions be pure. Where the run ends,
the FILTERs and arguments have values, and the state of every aggregate that is not ordered is, in
every group, the fold over the arguments of the rows of the group for which the FILTER is true;
all other states are as before. The run does end where FILTERs and arguments have values and no
transition function raises an error. -/
theorem execBuildAggTrans_folds (w : World) (setup : Setup) (phase : AggPhase) (pertrans : List PerTrans)
    (content : Datum → V) (f : Nat → Option V → List (Option V) → Option V) (rows : List (AggRow Key)) (m : Machine)
    (store : GroupStore Key) (plain : phase.isCombine = false) (separate : phase.Separate)
    (valid : ∀ p ∈ pertrans, p.Valid)
    (initial : ∀ p ∈ pertrans, p.transfn.fnStrict = true → p.initValueIsNull = true → 0 < p.numTransInputs)
    (purity : PureTransitions w content f)
    (pointed : ∀ row ∈ rows, phase.nullcheck = false → ∀ set ∈ phase.sets, (row.pointer set.2).isSome = true)
    (booleans : rowsInputs w setup phase pertrans rows m.trace ≠ .notBoolean)
    (loaded : Loaded (execBuildAggTrans setup phase pertrans).stores m) :
    (∀ m' store', advanceAggregates w (execBuildAggTrans setup phase pertrans).steps rows m store =
        .finished (m', store') →
      ∃ inputs trace, rowsInputs w setup phase pertrans rows m.trace = .value inputs trace ∧
        (∀ setoff key transno p, setoff ∈ phase.sets.map Prod.snd → pertrans[transno]? = some p → p.numSortCols = 0 →
          p.state content (store' setoff key transno) = sqlFold content p.transfn.fnStrict (f transno)
            (p.state content (store setoff key transno)) (groupArgs rows inputs setoff key transno)) ∧
        ∀ setoff key transno, (setoff ∉ phase.sets.map Prod.snd ∨ (∀ row ∈ rows, row.pointer setoff ≠ some key) ∨
          ∀ p, pertrans[transno]? = some p → p.numSortCols ≠ 0) →
            store' setoff key transno = store setoff key transno) ∧
    ((∀ trace c, Call.isTransition c = true → ∃ ds, w.answer trace c = .ok ds) →
      ∀ inputs trace, rowsInputs w setup phase pertrans rows m.trace = .value inputs trace →
        ∃ m' store', advanceAggregates w (execBuildAggTrans setup phase pertrans).steps rows m store =
          .finished (m', store')) := by
  have built : (Source.aggTrans phase pertrans).build setup = some (execBuildAggTrans setup phase pertrans) := rfl
  have ready : AggLoaded setup phase pertrans m := Source.loaded_body built loaded m.slots m.trace
  have given : ∀ p ∈ pertrans, p.numSortCols = 0 → p.kind = .initStrict → 0 < p.numTransInputs := by
    intro p member _ kind
    unfold PerTrans.kind at kind
    split at kind
    · rename_i both
      rw [Bool.and_eq_true] at both
      exact initial p member both.1 both.2
    · split at kind <;> cases kind
  have outcome := advanceAggregates_outcome (w := w) plain valid rows m store pointed ready
  have tracks : SameAnswer _ _ (advanceRows w setup phase pertrans rows store m.trace) _ ∨ _ :=
    advanceRows_tracks purity separate.nodup valid given rows store m.trace m.trace rfl
  constructor
  · intro m' store' finished
    cases answered : advanceRows w setup phase pertrans rows store m.trace with
    | value store1 trace =>
      rw [answered] at outcome tracks
      obtain ⟨m1, _, ends⟩ := outcome
      cases finished.symm.trans ends
      rcases tracks with same | ⟨_, raised, _⟩
      · obtain ⟨inputs, trace', evaluated, folded, _⟩ := same.of_value
        exact ⟨inputs, trace', evaluated, folded.fold, folded.other⟩
      · cases raised
    | raised e =>
      rw [answered] at outcome
      cases finished.symm.trans outcome
    | notBoolean =>
      rw [answered] at tracks
      rcases tracks with same | ⟨_, raised, _⟩
      · generalize rowsInputs w setup phase pertrans rows m.trace = answer at same booleans
        cases same
        exact absurd rfl booleans
      · cases raised
  · intro succeed inputs trace evaluated
    rw [evaluated] at tracks
    cases answered : advanceRows w setup phase pertrans rows store m.trace with
    | value store' trace' =>
      rw [answered] at outcome
      obtain ⟨m', _, finished⟩ := outcome
      exact ⟨m', store', finished⟩
    | raised e =>
      rw [answered] at tracks
      rcases tracks with same | ⟨e', raised, trace1, c, isHidden, error⟩
      · cases same
      · obtain ⟨ds, ok⟩ := succeed trace1 c isHidden
        rw [ok] at error
        cases error
    | notBoolean =>
      rw [answered] at tracks
      rcases tracks with same | ⟨e', raised, _⟩
      · cases same
      · cases raised

end Fold

/-! ## An aggregate without an initial value -/

/-- The larger of two values, for values of the other arguments NULL. -/
def larger : SqlValue → List SqlValue → SqlValue
  | some a, [some b] => some (if a.ult b then b else a)
  | _, _ => none

def sqlDatum (v : SqlValue) : NullableDatum := { value := v.getD 0, isnull := v.isNone }

/-- Transition functions return the larger value; copies are not needed. -/
def largerWorld : World where
  answer _ c := match c with
    | .transition _ _ _ (state :: args) => .ok [sqlDatum (larger state args)]
    | .transition _ _ _ [] => .ok []
    | .aggInitGroup _ v => .ok [sqlDatum v]
    | .aggTransReparent _ v _ => .ok [sqlDatum v]
    | _ => .error "not called"
  caseValue := nullDatum
  domainValue := nullDatum
  aggValue _ := nullDatum

lemma largerWorld_pure : PureTransitions largerWorld id fun _ => larger := by
  have shown (v : SqlValue) : (sqlDatum v).sql = v := by cases v <;> rfl
  refine ⟨fun _ _ _ _ => rfl, fun trace func transno setno state args ds answered => ?_,
    fun trace transno v ds copied => ?_, fun trace transno v old ds copied => ?_⟩
  · cases answered
    rw [Option.map_id, List.map_id]
    exact shown (larger state args)
  · cases copied
    rfl
  · cases copied
    rfl

/-- `max(x)`: strict, and without an initial value. -/
def maxTrans : PerTrans where
  aggdirectargs := []
  args := [.var { varno := .outer, varattno := 1, vartype := 20 }]
  aggfilter := none
  transfn := { int4eq with funcid := 1236, funcname := "int8larger" }
  deserialfn := none
  transtypeByVal := true
  initValueIsNull := true
  numInputs := 1
  numTransInputs := 1
  numSortCols := 0

def twoSets : AggPhase where
  isCombine := false
  doSort := true
  doHash := false
  nullcheck := true
  numsets := 2
  numHashes := 0
  maxsets := 2
  hashed := false

/-- The first set has one group; in the second one the last row belongs to no group. -/
def sampleRows : List (AggRow Nat) :=
  let row (d : NullableDatum) (key : Option Nat) : AggRow Nat :=
    { slots := fun _ => { nvalid := 1, values := fun _ => d }, pointer := fun setoff => if setoff = 0 then some 0 else key }
  [row { value := 5, isnull := false } (some 1), row nullDatum (some 1), row { value := 7, isnull := false } none]

theorem sampleRows_max : ∃ m' store',
    advanceAggregates largerWorld (execBuildAggTrans sampleSetup twoSets [maxTrans]).steps sampleRows
      (columnMachine nullDatum) (fun _ _ _ => { transValue := 0, transValueIsNull := true, noTransValue := true }) =
      .finished (m', store') ∧
    maxTrans.state id (store' 0 0 0) = .value (some 7) ∧ maxTrans.state id (store' 1 1 0) = .value (some 5) ∧
    maxTrans.state id (store' 1 0 0) = .missing := by
  have valid : ∀ p ∈ [maxTrans], p.Valid := List.forall_mem_singleton.mpr
    ⟨rfl, fun _ => rfl, Nat.le_refl 1, by decide, nofun⟩
  have evaluated : rowsInputs largerWorld sampleSetup twoSets [maxTrans] sampleRows [] =
      .value [[some [some 5]], [some [none]], [some [some 7]]] [] := rfl
  have stored : Loaded (execBuildAggTrans sampleSetup twoSets [maxTrans]).stores (columnMachine nullDatum) := by
    have nothing : (execBuildAggTrans sampleSetup twoSets [maxTrans]).stores = [] := rfl
    rw [nothing]
    exact List.forall_mem_nil _
  obtain ⟨folds, finishes⟩ := execBuildAggTrans_folds largerWorld sampleSetup twoSets [maxTrans] id (fun _ => larger)
    sampleRows (columnMachine nullDatum) (fun _ _ _ => { transValue := 0, transValueIsNull := true, noTransValue := true })
    rfl nofun valid (List.forall_mem_singleton.mpr fun _ _ => Nat.succ_pos 0) largerWorld_pure
    (fun _ _ never => by cases never) (fun never => by cases never) stored
  have succeed (trace : List Call) (c : Call) (isTransition : c.isTransition = true) :
      ∃ ds, largerWorld.answer trace c = .ok ds := by
    cases c with
    | transition func transno setno args => cases args <;> exact ⟨_, rfl⟩
    | aggInitGroup => exact ⟨_, rfl⟩
    | aggTransReparent => exact ⟨_, rfl⟩
    | _ => cases isTransition
  obtain ⟨m', store', finished⟩ := finishes succeed _ _ evaluated
  obtain ⟨inputs, trace, evaluated', fold, other⟩ := folds m' store' finished
  cases evaluated.symm.trans evaluated'
  refine ⟨m', store', finished, ?_, ?_, ?_⟩
  · exact fold 0 0 0 maxTrans (by decide) rfl rfl
  · exact fold 1 1 0 maxTrans (by decide) rfl rfl
  · rw [other 1 0 0 (Or.inr (Or.inl (by decide)))]
    rfl

end Hex.Compiler
