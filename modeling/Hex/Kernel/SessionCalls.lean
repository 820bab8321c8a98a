/-
# Kernel.SessionCalls — a statement as the requests it makes

What a statement does to `currentSQLExprs` and `currentExprList` is a list of
requests in the sense of `Theory.Registry`: an expression in an operator looks for
its entry, and appends one when it finds none. Which requests there are depends on
the table of expressions and on the records of the operators only, and not on what
the registries hold.

`trace` lists the requests. `Shape` is a state without the counts and the measured
values, which no test reads. A statement does to the shape what its `acts` say
(`run_shape`), and this is to answer the requests of the trace, in both registries
(`Shape.run_eq`).
-/
import Hex.Kernel.Session
import Hex.Theory.Registry

namespace Hex.Kernel.Session

open ExprTable PlanRecords Theory.CText Theory.Registry
open JitRouting (Operator exprMaxNum)

/-! ## What reaches the registries -/

/-- What of an event reaches the registries: the nodes of a plan, or an expression
with its operator. -/
inductive Act (D : Type) where
  | plan (keys : List (Operator D))
  | expr (op : Option (Operator D)) (steps : List Int)

/-- An expression that asks for a slot: the number `add_expression` gave it, and the
records there are at the time. -/
structure Call (D : Type) where
  expressionId : Nat
  steps : List Int
  key : Operator D
  ops : List (Operator D)

/-- What a statement leaves in the table and the records, and its calls; an
expression that asks for no slot is `none`. -/
structure Trace (D : Type) where
  table : Table
  ops : List (Operator D)
  calls : List (Option (Call D))

section Calls

variable {D : Type} {mem : Memory D} {a : Act D} {tr : Trace D} {table : Table} {ops : List (Operator D)}
  {as : List (Act D)}

def act : Event D → Option (Act D)
  | .planned stmt => some (.plan stmt.keys)
  | .handed plan steps => some (.expr (plan.map PlanNode.key) steps)
  | .counted _ => none
  | .measured _ _ _ _ _ => none

def acts (events : List (Event D)) : List (Act D) := events.filterMap act

/-- The call of an expression, when `add_expression` has an entry for it and it
belongs to a plan node. -/
def callOf (table : Table) (ops : List (Operator D)) (op : Option (Operator D)) (steps : List Int)
    (entry : Option Nat) : Option (Call D) :=
  match entry, op with
  | some i, some key => some ⟨(table.exprTypes i).expressionId, steps, key, ops⟩
  | _, _ => none

def trace : Table → List (Operator D) → List (Act D) → Option (Trace D)
  | table, ops, [] => some ⟨table, ops, []⟩
  | table, ops, .plan keys :: rest => trace table (ops ++ keys) rest
  | table, ops, .expr op steps :: rest =>
    match addExpression table steps with
    | none => none
    | some (table, entry) =>
      (trace table ops rest).map fun tr =>
        { tr with calls := callOf table ops op steps entry :: tr.calls }

/-- What a pointer reads, given the keys of the records. -/
def reading (mem : Memory D) (block time : Nat) (ops : List (Operator D)) (p : OpPtr) :
    Operator D :=
  if p.block = block then (ops[p.index]?).getD (mem time p) else mem time p

def timed : Nat → List (Option (Call D)) → List (Option (Nat × Call D))
  | _, [] => []
  | time, c :: rest => c.map (fun c => (time + 1, c)) :: timed (time + 1) rest

/-! ## The calls of a trace -/

lemma trace_ops {table : Table} {ops : List (Operator D)} {as : List (Act D)} {tr : Trace D}
    (ran : trace table ops as = some tr) : ops <+: tr.ops := by
  induction as generalizing table ops tr with
  | nil =>
    cases ran
    exact List.prefix_refl ops
  | cons a rest ih =>
    cases a with
    | plan keys => exact (List.prefix_append ops keys).trans (ih ran)
    | expr op steps =>
      simp only [trace] at ran
      split at ran
      · cases ran
      · obtain ⟨tr', ran', rfl⟩ := Option.map_eq_some_iff.mp ran
        exact (ih ran' : ops <+: tr'.ops)

lemma trace_expr {op : Option (Operator D)} {steps : List Int} {rest : List (Act D)}
    (ran : trace table ops (.expr op steps :: rest) = some tr) :
    ∃ table' entry tr', addExpression table steps = some (table', entry) ∧
      trace table' ops rest = some tr' ∧ tr.table = tr'.table ∧ tr.ops = tr'.ops ∧
      tr.calls = callOf table' ops op steps entry :: tr'.calls := by
  simp only [trace] at ran
  split at ran
  · cases ran
  · rename_i table' entry added
    obtain ⟨tr', ran', rfl⟩ := Option.map_eq_some_iff.mp ran
    exact ⟨table', entry, tr', added, ran', rfl, rfl, rfl⟩

lemma callOf_eq_some {table : Table} {ops : List (Operator D)} {op : Option (Operator D)}
    {steps : List Int} {entry : Option Nat} {c : Call D} :
    callOf table ops op steps entry = some c ↔ ∃ i key, entry = some i ∧ op = some key ∧
      c = ⟨(table.exprTypes i).expressionId, steps, key, ops⟩ := by
  cases entry <;> cases op <;> simp [callOf, eq_comm]

/-- A call is that of an act, and sees the records there were. -/
lemma trace_call (ran : trace table ops as = some tr) {c : Call D} (member : some c ∈ tr.calls) :
    ops <+: c.ops ∧ c.ops <+: tr.ops ∧ .expr (some c.key) c.steps ∈ as := by
  induction as generalizing table ops tr with
  | nil =>
    cases ran
    cases member
  | cons a rest ih =>
    cases a with
    | plan keys =>
      obtain ⟨before, after, inside⟩ := ih ran member
      exact ⟨(List.prefix_append ops keys).trans before, after, List.mem_cons_of_mem _ inside⟩
    | expr op steps =>
      obtain ⟨table', entry, tr', _, ran', _, opsEq, callsEq⟩ := trace_expr ran
      rw [callsEq] at member
      rw [opsEq]
      obtain here | later := List.mem_cons.mp member
      · obtain ⟨i, key, _, rfl, rfl⟩ := callOf_eq_some.mp here.symm
        exact ⟨List.prefix_refl ops, trace_ops ran', List.mem_cons_self⟩
      · obtain ⟨before, after, inside⟩ := ih ran' later
        exact ⟨before, after, List.mem_cons_of_mem _ inside⟩

lemma trace_pairwise (ran : trace table ops as = some tr) :
    tr.calls.reduceOption.Pairwise fun c c' => c.ops <+: c'.ops := by
  induction as generalizing table ops tr with
  | nil =>
    cases ran
    exact .nil
  | cons a rest ih =>
    cases a with
    | plan keys => exact ih ran
    | expr op steps =>
      obtain ⟨table', entry, tr', _, ran', _, _, callsEq⟩ := trace_expr ran
      rw [callsEq]
      cases here : callOf table' ops op steps entry with
      | none => exact ih ran'
      | some c =>
        obtain ⟨i, key, _, rfl, rfl⟩ := callOf_eq_some.mp here
        refine List.pairwise_cons.mpr ⟨fun c' member => ?_, ih ran'⟩
        exact (trace_call ran' (List.reduceOption_mem_iff.mp member)).1

/-- No plan node has the tag `T_Invalid`, which is 0. -/
lemma PlanTag.code_ne_zero (tag : PlanTag) : tag.code ≠ 0 := by
  have : (0 : Int) ≤ tag.ctorIdx := Int.natCast_nonneg _
  simp only [PlanTag.code]
  omega

lemma acts_key {events : List (Event D)} {key : Operator D} {steps : List Int}
    (member : .expr (some key) steps ∈ acts events) : key.type ≠ 0 := by
  obtain ⟨e, _, kind⟩ := List.mem_filterMap.mp member
  cases e with
  | planned stmt => simp [act] at kind
  | handed plan steps' =>
    simp only [act, Option.some.injEq, Act.expr.injEq, Option.map_eq_some_iff] at kind
    obtain ⟨⟨node, _, rfl⟩, _⟩ := kind
    exact PlanTag.code_ne_zero node.type
  | counted | measured => cases kind

lemma reading_own (mem : Memory D) (block time : Nat) {ops' : List (Operator D)} {i : Nat}
    {key : Operator D} (here : ops[i]? = some key) (later : ops <+: ops') :
    reading mem block time ops' ⟨block, i⟩ = key := by
  have bound := (List.getElem?_eq_some_iff.mp here).1
  simp [reading, getElem?_extends later bound, here]

lemma timed_calls (time : Nat) (calls : List (Option (Call D))) :
    (timed time calls).reduceOption.map Prod.snd = calls.reduceOption := by
  induction calls generalizing time with
  | nil => rfl
  | cons c calls ih =>
    cases c with
    | none => exact ih (time + 1)
    | some c => exact congrArg (c :: ·) (ih (time + 1))

lemma timed_mem (time : Nat) {calls : List (Option (Call D))} {c : Call D}
    (member : some c ∈ calls) : ∃ time', some (time', c) ∈ timed time calls := by
  have inside : c ∈ (timed time calls).reduceOption.map Prod.snd := by
    rw [timed_calls]
    exact List.reduceOption_mem_iff.mpr member
  obtain ⟨⟨time', c'⟩, here, rfl⟩ := List.mem_map.mp inside
  exact ⟨time', List.reduceOption_mem_iff.mp here⟩

lemma mem_of_timed {time : Nat} {calls : List (Option (Call D))} {call : Nat × Call D}
    (member : call ∈ (timed time calls).reduceOption) : some call.2 ∈ calls := by
  rw [← List.reduceOption_mem_iff, ← timed_calls time]
  exact List.mem_map_of_mem member

/-- The calls of a statement belong to plan nodes. -/
lemma key_type_ne {events : List (Event D)} (traced : trace table [] (acts events) = some tr) (c : Call D)
    (member : some c ∈ tr.calls) : c.key.type ≠ 0 :=
  acts_key (trace_call traced member).2.2

lemma placeAll_timed {E : Type} (entries : List E) (time : Nat) (calls : List (Option (Call D)))
    (req : Nat × Call D → Request E) :
    (placeAll entries ((timed time calls).map (Option.map req))).1 =
      enterAll entries ((timed time calls).reduceOption.map req) := by
  rw [placeAll_entries, List.reduceOption_map]

/-! ## The requests of a call -/

variable [DecidableEq D]

/-- The pointer `findOperatorInfo` returns for the call. -/
def Call.op (block : Nat) (c : Call D) : Option OpPtr :=
  (c.ops.findIdx? fun op => op = c.key).map fun i => ⟨block, i⟩

/-- The test of an entry's operator. -/
def opMatches (mem : Memory D) (block time : Nat) (c : Call D) (op : Option OpPtr)
    (invalid : Bool) : Bool :=
  match op with
  | some p => reading mem block time c.ops p = c.key
  | none => invalid

/-- The request of a call to `currentSQLExprs`. -/
def infoRequest (mem : Memory D) (block : Nat) (call : Nat × Call D) : Request ExprInfo where
  accepts info :=
    info.hash = calculateHash call.2.steps && info.steps.length = call.2.steps.length &&
      opMatches mem block call.1 call.2 info.op (call.2.key.type = 0)
  entry := ⟨call.2.expressionId, call.2.op block, 0, calculateHash call.2.steps, call.2.steps⟩

/-- The request of a call to `currentExprList`. -/
def slotRequest (mem : Memory D) (block : Nat) (call : Nat × Call D) : Request Slot where
  accepts slot :=
    slot.expressionId = call.2.expressionId && slot.hash = calculateHash call.2.steps &&
      slot.stepLens = call.2.steps.length &&
      opMatches mem block call.1 call.2 slot.op (call.2.key.optId = 0 && call.2.key.type = 0)
  entry := ⟨call.2.expressionId, call.2.op block, call.2.steps.length, calculateHash call.2.steps⟩

/-! ## The shape of a state -/

/-- A state without counts and measured values. -/
structure Shape (D : Type) where
  table : Table
  currentStatement : Option Text
  block : Nat
  ops : List (Operator D)
  infos : List ExprInfo
  slots : List Slot
  tick : Nat

def bare (info : ExprInfo) : ExprInfo := { info with count := 0 }

variable {s : Shape D}

def shape (s : State D) : Shape D where
  table := s.table
  currentStatement := s.currentStatement
  block := s.block
  ops := s.currentSQLOpts.map OperatorInfo.key
  infos := s.currentSQLExprs.map bare
  slots := s.currentExprList
  tick := s.tick

/-- The arrays hold the entries. -/
structure Shape.Inside (s : Shape D) : Prop where
  ops : s.ops.length ≤ optListSize
  infos : s.infos.length ≤ exprMaxNum
  steps : ∀ info ∈ s.infos, info.steps.length ≤ exprSize
  slots : s.slots.length ≤ exprMaxNum

omit [DecidableEq D] in
lemma Shape.inside_iff (s : Shape D) : s.Inside ↔ s.ops.length ≤ optListSize ∧
    s.infos.length ≤ exprMaxNum ∧ (∀ info ∈ s.infos, info.steps.length ≤ exprSize) ∧
    s.slots.length ≤ exprMaxNum :=
  ⟨fun h => ⟨h.ops, h.infos, h.steps, h.slots⟩, fun ⟨a, b, c, d⟩ => ⟨a, b, c, d⟩⟩

instance (s : Shape D) : Decidable s.Inside := decidable_of_iff' _ s.inside_iff

/-- What an act does, in arrays without a bound. -/
def Shape.next (mem : Memory D) (s : Shape D) : Act D → Option (Shape D × List (Option Nat))
  | .plan keys => some ({ s with ops := s.ops ++ keys }, [])
  | .expr op steps =>
    match addExpression s.table steps with
    | none => none
    | some (table, entry) =>
      let s := { s with table := table, tick := s.tick + 1 }
      match callOf table s.ops op steps entry with
      | none => some (s, [none])
      | some c =>
        let placed := place s.slots (slotRequest mem s.block (s.tick, c))
        some ({ s with
          infos := (place s.infos (infoRequest mem s.block (s.tick, c))).1
          slots := placed.1 }, [some placed.2])

/-- What an act does inside the arrays. -/
def Shape.step (mem : Memory D) (s : Shape D) (a : Act D) : Option (Shape D × List (Option Nat)) :=
  (s.next mem a).bind fun r => if r.1.Inside then some r else none

def Shape.run (mem : Memory D) : Shape D → List (Act D) → Option (Shape D × List (Option Nat))
  | s, [] => some (s, [])
  | s, a :: rest =>
    (s.step mem a).bind fun r => (Shape.run mem r.1 rest).map fun r' => (r'.1, r.2 ++ r'.2)

/-! ## A run, by its shape -/

omit [DecidableEq D] in
lemma deref_shape (mem : Memory D) (s : State D) : deref mem s = reading mem s.block s.tick (shape s).ops := by
  funext p
  simp only [deref, reading, shape, List.getElem?_map]
  cases s.currentSQLOpts[p.index]? <;> rfl

lemma findOperatorInfo_shape (s : State D) (key : Operator D) : findOperatorInfo s key =
      ((shape s).ops.findIdx? fun op => op = key).map fun i => ⟨s.block, i⟩ := by
  simp only [findOperatorInfo, shape, List.findIdx?_map]
  rfl

lemma infoMatches_shape (mem : Memory D) (s : State D) (expressionId : Nat) (steps : List Int)
    (key : Operator D) (info : ExprInfo) : infoMatches mem s steps key info =
      (infoRequest mem s.block (s.tick, ⟨expressionId, steps, key, (shape s).ops⟩)).accepts (bare info) := by
  unfold infoMatches sameOperator
  rewrite [deref_shape]
  rfl

lemma slotMatches_shape (mem : Memory D) (s : State D) (expressionId : Nat) (steps : List Int)
    (key : Operator D) : slotMatches mem s expressionId steps key =
      (slotRequest mem s.block (s.tick, ⟨expressionId, steps, key, (shape s).ops⟩)).accepts := by
  funext slot
  unfold slotMatches sameOperator
  rewrite [deref_shape]
  rfl

/-- **What `jit_compile_expr` does to `currentSQLExprs` is to answer the request.** -/
theorem recordInfo_shape (mem : Memory D) (s : State D) (inside : (shape s).Inside)
    (expressionId : Nat) (steps : List Int) (key : Operator D) :
    (recordInfo mem s expressionId steps key).map shape = (let s' : Shape D := { shape s with
        infos := (place (shape s).infos
          (infoRequest mem s.block (s.tick, ⟨expressionId, steps, key, (shape s).ops⟩))).1 }
      if s'.Inside then some s' else none) := by
  have any : s.currentSQLExprs.any (infoMatches mem s steps key) = ((shape s).infos.findIdx? (infoRequest mem s.block
        (s.tick, ⟨expressionId, steps, key, (shape s).ops⟩)).accepts).isSome := by
    rw [List.findIdx?_isSome]
    simp only [shape, List.any_map, Function.comp_def]
    exact congrArg _ (funext fun info => infoMatches_shape mem s expressionId steps key info)
  have length : (shape s).infos.length = s.currentSQLExprs.length := by simp [shape]
  cases found : (shape s).infos.findIdx? (infoRequest mem s.block
      (s.tick, ⟨expressionId, steps, key, (shape s).ops⟩)).accepts with
  | some j =>
    rw [found] at any
    simp [recordInfo, any, place_hit found, inside]
  | none =>
    rw [found] at any
    simp only [recordInfo, any, place_miss found, Option.isSome_none, Bool.false_eq_true, if_false]
    split_ifs with room fits fits
    · simp [shape, findOperatorInfo_shape, infoRequest, Call.op, bare]
    · refine absurd ⟨inside.ops, ?_, ?_, inside.slots⟩ fits
      · simp only [List.length_append, List.length_singleton, length]
        omega
      · intro info member
        obtain old | new := List.mem_append.mp member
        · exact inside.steps info old
        · rw [List.mem_singleton.mp new]
          exact room.2
    · have count := fits.infos
      have own := fits.steps _ (List.mem_append_right _ List.mem_cons_self)
      simp only [List.length_append, List.length_singleton, length] at count
      exact absurd ⟨by omega, own⟩ room
    · rfl

/-- **And so is what it does to `currentExprList`.** -/
theorem takeSlot_shape (mem : Memory D) (s : State D) (inside : (shape s).Inside)
    (expressionId : Nat) (steps : List Int) (key : Operator D) :
    (takeSlot mem s expressionId steps key).map (fun r => (shape r.1, r.2)) =
      (let placed := place (shape s).slots
        (slotRequest mem s.block (s.tick, ⟨expressionId, steps, key, (shape s).ops⟩))
      let s' : Shape D := { shape s with slots := placed.1 }
      if s'.Inside then some (s', placed.2) else none) := by
  have same : s.currentExprList = (shape s).slots := rfl
  simp only [takeSlot, slotMatches_shape, same]
  cases found : (shape s).slots.findIdx? (slotRequest mem s.block
      (s.tick, ⟨expressionId, steps, key, (shape s).ops⟩)).accepts with
  | some j => simp [place_hit found, inside]
  | none =>
    simp only [place_miss found]
    split_ifs with room fits fits
    · simp [shape, findOperatorInfo_shape, slotRequest, Call.op]
    · refine absurd ⟨inside.ops, inside.infos, inside.steps, ?_⟩ fits
      simp only [List.length_append, List.length_singleton]
      omega
    · have count := fits.slots
      simp only [List.length_append, List.length_singleton] at count
      omega
    · rfl

/-- A call answers both of its requests, or leaves an array. -/
lemma slotFor_shape (mem : Memory D) (s : State D) (inside : (shape s).Inside)
    (expressionId : Nat) (steps : List Int) (key : Operator D) :
    (slotFor mem s expressionId steps key).map (fun r => (shape r.1, r.2)) =
      (let c : Call D := ⟨expressionId, steps, key, (shape s).ops⟩
      let placed := place (shape s).slots (slotRequest mem s.block (s.tick, c))
      let s' : Shape D := { shape s with
        infos := (place (shape s).infos (infoRequest mem s.block (s.tick, c))).1
        slots := placed.1 }
      if s'.Inside then some (s', placed.2) else none) := by
  have recorded := recordInfo_shape mem s inside expressionId steps key
  simp only at recorded ⊢
  cases result : recordInfo mem s expressionId steps key with
  | none =>
    rw [result, Option.map_none] at recorded
    have left : ¬ ({ shape s with
        infos := (place (shape s).infos (infoRequest mem s.block
          (s.tick, ⟨expressionId, steps, key, (shape s).ops⟩))).1 } : Shape D).Inside := by
      intro fits
      rw [if_pos fits] at recorded
      cases recorded
    rw [if_neg fun fits => left ⟨fits.ops, fits.infos, fits.steps, inside.slots⟩]
    simp [slotFor, result]
  | some s1 =>
    rw [result, Option.map_some] at recorded
    split_ifs at recorded with fits
    have after := Option.some.inj recorded
    have block : s1.block = s.block := congrArg Shape.block after
    have tick : s1.tick = s.tick := congrArg Shape.tick after
    have taken := takeSlot_shape mem s1 (after ▸ fits) expressionId steps key
    simp only [after, block, tick] at taken
    simp only [slotFor, result]
    exact taken

lemma bare_counted (infos : List ExprInfo) (counts : Nat → Nat) :
    (infos.mapIdx fun i info => { info with count := counts i }).map bare = infos.map bare := by
  apply List.ext_getElem?
  intro i
  simp only [List.getElem?_map, List.getElem?_mapIdx, Option.map_map]
  rfl

omit [DecidableEq D] in
lemma keys_modify (recs : List (OperatorInfo D)) (i : Nat) {f : OperatorInfo D → OperatorInfo D}
    (keeps : ∀ r, (f r).key = r.key) : (recs.modify i f).map OperatorInfo.key = recs.map OperatorInfo.key := by
  apply List.ext_getElem?
  intro j
  simp only [List.getElem?_map, List.getElem?_modify]
  cases recs[j]? with
  | none => rfl
  | some r =>
    show some (OperatorInfo.key (if i = j then f r else r)) = some r.key
    split_ifs
    · rw [keeps r]
    · rfl

/-- **An event does to the shape what its act says**, or leaves an array. -/
theorem step_shape [Zero D] (mem : Memory D) (s : State D) (inside : (shape s).Inside)
    (e : Event D) : (step mem s e).map (fun r => (shape r.1, r.2)) = match act e with
      | none => some (shape s, [])
      | some a => (shape s).step mem a := by
  cases e with
  | planned stmt =>
    have bound : s.currentSQLOpts.length ≤ optListSize := by simpa [shape] using inside.ops
    have after : (shape s).ops ++ stmt.keys =
        (s.currentSQLOpts ++ forest stmt.trees s.currentSQLOpts.length).map OperatorInfo.key := by
      rw [List.map_append, keys_forest]
      rfl
    have length : ((shape s).ops ++ stmt.keys).length = s.currentSQLOpts.length + stmt.size := by
      rw [List.length_append, length_keys]
      simp [shape]
    simp only [step, act, Shape.step, Shape.next, planQuery_eq stmt bound, Option.bind_some]
    by_cases room : s.currentSQLOpts.length + stmt.size ≤ optListSize
    · have fits : ({ shape s with ops := (shape s).ops ++ stmt.keys } : Shape D).Inside :=
        ⟨length ▸ room, inside.infos, inside.steps, inside.slots⟩
      rw [if_pos room, if_pos fits, after]
      rfl
    · rw [if_neg room, if_neg fun fits => room (length ▸ fits.ops)]
      rfl
  | handed plan steps =>
    simp only [step, act, Shape.step, Shape.next, jitCompileExpr]
    have table : (shape s).table = s.table := rfl
    rw [table]
    cases added : addExpression s.table steps with
    | none => rfl
    | some result =>
      obtain ⟨t, entry⟩ := result
      have inside' : (shape { s with table := t, tick := s.tick + 1 }).Inside :=
        ⟨inside.ops, inside.infos, inside.steps, inside.slots⟩
      cases entry with
      | none => exact (if_pos inside').symm
      | some i =>
        cases plan with
        | none => exact (if_pos inside').symm
        | some node =>
          have placed := slotFor_shape mem { s with table := t, tick := s.tick + 1 } inside'
            (t.exprTypes i).expressionId steps node.key
          have indices := congrArg (Option.map fun r : Shape D × Nat => (r.1, [some r.2])) placed
          simp only [Option.map_map] at indices ⊢
          refine Eq.trans indices ?_
          simp only [apply_ite (Option.map _), Option.map_some, Option.map_none]
          rfl
  | counted counts =>
    simp only [step, act, Option.map_some, shape, bare_counted]
  | measured node outputRows filteredRows startupTime totalTime =>
    refine congrArg (fun ops => some (({ shape s with ops := ops } : Shape D), [])) ?_
    cases findOperatorInfo s node.key with
    | none => rfl
    | some p => exact keys_modify s.currentSQLOpts p.index fun r => rfl

lemma run_cons [Zero D] (mem : Memory D) (s : State D) (e : Event D) (rest : List (Event D)) :
    run mem s (e :: rest) = (step mem s e).bind fun r =>
      (run mem r.1 rest).map fun r' => (r'.1, r.2 ++ r'.2) := by
  simp only [run]
  cases step mem s e with
  | none => rfl
  | some r => cases later : run mem r.1 rest <;> simp [later]

lemma Shape.inside_of_step {r : Shape D × List (Option Nat)} (ran : s.step mem a = some r) : r.1.Inside := by
  obtain ⟨r', _, checked⟩ := Option.bind_eq_some_iff.mp ran
  split_ifs at checked with fits
  cases checked
  exact fits

/-- **A statement does to the shape what its acts say.** -/
theorem run_shape [Zero D] (mem : Memory D) (events : List (Event D)) (s : State D) (inside : (shape s).Inside) :
    (run mem s events).map (fun r => (shape r.1, r.2)) = (shape s).run mem (acts events) := by
  induction events generalizing s with
  | nil => rfl
  | cons e rest ih =>
    have first := step_shape mem s inside e
    rw [run_cons]
    cases kind : act e with
    | none =>
      have same : acts (e :: rest) = acts rest := List.filterMap_cons_none kind
      rw [kind] at first
      obtain ⟨⟨s', indices⟩, ran, eq⟩ := Option.map_eq_some_iff.mp first
      obtain ⟨unchanged, rfl⟩ := Prod.mk.inj eq
      have later := ih s' (unchanged ▸ inside)
      rw [unchanged] at later
      simpa [ran, same] using later
    | some a =>
      have more : acts (e :: rest) = a :: acts rest := List.filterMap_cons_some kind
      rw [kind] at first
      simp only [more, Shape.run, ← first]
      cases ran : step mem s e with
      | none => rfl
      | some r =>
        rw [ran] at first
        have later := ih r.1 (Shape.inside_of_step first.symm)
        simp only [Option.bind_some, Option.map_some, ← later, Option.map_map]
        rfl

/-! ## A run, by its requests -/

/-- What the requests of a trace leave. -/
def Shape.answer (mem : Memory D) (s : Shape D) (tr : Trace D) : Shape D × List (Option Nat) :=
  let calls := timed s.tick tr.calls
  let placed := placeAll s.slots (calls.map (Option.map (slotRequest mem s.block)))
  ({ s with
    table := tr.table
    ops := tr.ops
    infos := (placeAll s.infos (calls.map (Option.map (infoRequest mem s.block)))).1
    slots := placed.1
    tick := s.tick + tr.calls.length }, placed.2)

lemma Shape.inside_of_answer (fits : (s.answer mem tr).1.Inside) (ops : s.ops <+: tr.ops) : s.Inside where
  ops := ops.length_le.trans fits.ops
  infos := (prefix_placeAll _ s.infos).length_le.trans fits.infos
  steps info member := fits.steps info ((prefix_placeAll _ s.infos).subset member)
  slots := (prefix_placeAll _ s.slots).length_le.trans fits.slots

lemma Shape.trace_none (rest : List (Act D))
    (failed : s.next mem a = none) : trace s.table s.ops (a :: rest) = none := by
  cases a with
  | plan keys => cases failed
  | expr op steps =>
    simp only [Shape.next] at failed
    split at failed
    · rename_i left
      simp [trace, left]
    · split at failed <;> cases failed

lemma Shape.trace_some {s' : Shape D} {first : List (Option Nat)}
    (rest : List (Act D)) (ran : s.next mem a = some (s', first)) :
    ∃ f : Trace D → Trace D,
      trace s.table s.ops (a :: rest) = (trace s'.table s'.ops rest).map f ∧
        ∀ tr, s.answer mem (f tr) = ((s'.answer mem tr).1, first ++ (s'.answer mem tr).2) := by
  cases a with
  | plan keys =>
    cases ran
    exact ⟨id, by simp [trace], fun tr => rfl⟩
  | expr op steps =>
    simp only [Shape.next] at ran
    split at ran
    · cases ran
    · rename_i table entry added
      refine ⟨fun tr => { tr with calls := callOf table s.ops op steps entry :: tr.calls }, ?_, ?_⟩
      · split at ran <;> · cases ran; simp only [trace, added]
      · intro tr
        have tick : s.tick + (tr.calls.length + 1) = s.tick + 1 + tr.calls.length := by omega
        split at ran
        · rename_i none
          cases ran
          simp only [Shape.answer, none, timed, placeAll, List.length_cons, List.map_cons, tick,
            Option.map_none, List.singleton_append]
        · rename_i c some
          cases ran
          simp only [Shape.answer, some, timed, placeAll, List.length_cons, List.map_cons, tick,
            Option.map_some, List.singleton_append]

/-- **A run answers the requests of its trace**, in each registry for itself, and
stays inside the arrays just when what it leaves does. -/
theorem Shape.run_eq (mem : Memory D) (as : List (Act D)) (s : Shape D) (inside : s.Inside) :
    s.run mem as = (trace s.table s.ops as).bind fun tr =>
      if (s.answer mem tr).1.Inside then some (s.answer mem tr) else none := by
  induction as generalizing s with
  | nil =>
    have same : s.answer mem ⟨s.table, s.ops, []⟩ = (s, []) := rfl
    simp [Shape.run, trace, same, inside]
  | cons a rest ih =>
    simp only [Shape.run, Shape.step]
    cases result : s.next mem a with
    | none =>
      rw [Shape.trace_none rest result]
      rfl
    | some r =>
      obtain ⟨s', first⟩ := r
      obtain ⟨f, traced, answered⟩ := Shape.trace_some rest result
      rw [traced]
      by_cases fits : s'.Inside
      · simp only [Option.bind_some, if_pos fits, ih s' fits]
        cases trace s'.table s'.ops rest with
        | none => rfl
        | some tr => by_cases last : (s'.answer mem tr).1.Inside <;> simp [answered, last]
      · simp only [Option.bind_some, if_neg fits]
        cases later : trace s'.table s'.ops rest with
        | none => rfl
        | some tr =>
          -- what is left at the end holds what did not fit here
          have last : ¬ (s'.answer mem tr).1.Inside := fun h =>
            fits (Shape.inside_of_answer h (trace_ops later))
          simp [answered, last]

/-- The start of a statement with expressions, by its shape. -/
def Shape.begin (s : Shape D) (query : Text) : Shape D where
  table := s.table
  currentStatement := if isRepetition s.currentStatement query then s.currentStatement else some query
  block := s.block + 1
  ops := []
  infos := []
  slots := if isRepetition s.currentStatement query then s.slots else []
  tick := s.tick

omit [DecidableEq D] in
lemma Shape.length_begin {s : Shape D} (query : Text) (slots : s.slots.length ≤ exprMaxNum) :
    (s.begin query).slots.length ≤ exprMaxNum := by
  show (if isRepetition s.currentStatement query then s.slots else []).length ≤ exprMaxNum
  split_ifs
  · exact slots
  · exact Nat.zero_le _

omit [DecidableEq D] in
lemma Shape.inside_begin {s : Shape D} {query : Text}
    (slots : (s.begin query).slots.length ≤ exprMaxNum) : (s.begin query).Inside where
  ops := Nat.zero_le _
  infos := Nat.zero_le _
  steps info member := by cases member
  slots := slots

/-- **A statement with expressions answers the requests of its trace.** -/
theorem execSimpleQuery_shape [Zero D] (mem : Memory D) (s : State D) (q : Query D)
    (expressions : containExpr q.text = true) (slots : ((shape s).begin q.text).slots.length ≤ exprMaxNum) :
    (execSimpleQuery mem s q).map (fun r => (shape r.1, r.2)) = (trace s.table [] (acts q.events)).bind fun tr =>
        if (((shape s).begin q.text).answer mem tr).1.Inside then
          some (((shape s).begin q.text).answer mem tr)
        else none := by
  have begun : shape (beginQuery s q.text) = (shape s).begin q.text := by
    simp only [shape, beginQuery, Shape.begin, expressions, if_true, List.map_nil]
    rfl
  have inside := Shape.inside_begin slots
  rw [execSimpleQuery, if_pos expressions, run_shape mem q.events _ (begun ▸ inside), begun,
    Shape.run_eq mem _ _ inside]
  rfl

lemma execSimpleQuery_some [Zero D] {s s' : State D} {q : Query D}
    {indices : List (Option Nat)} (expressions : containExpr q.text = true)
    (slots : ((shape s).begin q.text).slots.length ≤ exprMaxNum) (ran : execSimpleQuery mem s q = some (s', indices)) :
    ∃ tr, trace s.table [] (acts q.events) = some tr ∧
      ((shape s).begin q.text).answer mem tr = (shape s', indices) ∧ (shape s').Inside := by
  have shaped := execSimpleQuery_shape mem s q expressions slots
  rw [ran, Option.map_some] at shaped
  obtain ⟨tr, traced, checked⟩ := Option.bind_eq_some_iff.mp shaped.symm
  split_ifs at checked with fits
  have eq := Option.some.inj checked
  rw [eq] at fits
  exact ⟨tr, traced, eq, fits⟩

lemma execSimpleQuery_of_trace [Zero D] {s : State D} {q : Query D} (expressions : containExpr q.text = true)
    (slots : ((shape s).begin q.text).slots.length ≤ exprMaxNum) (traced : trace s.table [] (acts q.events) = some tr)
    (fits : (((shape s).begin q.text).answer mem tr).1.Inside) :
    ∃ s' indices, execSimpleQuery mem s q = some (s', indices) ∧
      ((shape s).begin q.text).answer mem tr = (shape s', indices) := by
  have shaped := execSimpleQuery_shape mem s q expressions slots
  rw [traced, Option.bind_some, if_pos fits] at shaped
  obtain ⟨⟨s', indices⟩, ran, eq⟩ := Option.map_eq_some_iff.mp shaped
  exact ⟨s', indices, ran, eq.symm⟩

/-! ## What a call accepts -/

/-- The pointer of a call: NULL when its operator has no record, and else to the
record. -/
lemma Call.op_cases (block : Nat) (c : Call D) : (c.op block = none ∧ c.key ∉ c.ops) ∨
      ∃ i, c.op block = some ⟨block, i⟩ ∧ c.ops[i]? = some c.key := by
  cases found : c.ops.findIdx? fun op => op = c.key with
  | none =>
    refine .inl ⟨by simp [Call.op, found], fun member => ?_⟩
    rw [List.findIdx?_eq_none_iff] at found
    simpa using found c.key member
  | some i =>
    obtain ⟨⟨op, here, same⟩, _⟩ := findIdx?_some_iff.mp found
    have eq : op = c.key := by simpa using same
    exact .inr ⟨i, by simp [Call.op, found], eq ▸ here⟩

/-- **A call accepts the operator of an earlier call of the statement just when it
has a record and is the same.** -/
theorem opMatches_own (mem : Memory D) (block time : Nat) {c c' : Call D} {invalid : Bool}
    (later : c.ops <+: c'.ops) (valid : invalid = false) :
    opMatches mem block time c' (c.op block) invalid = true ↔ c.key ∈ c.ops ∧ c.key = c'.key := by
  obtain ⟨null, absent⟩ | ⟨i, found, here⟩ := c.op_cases block
  · simp [opMatches, null, valid, absent]
  · have member : c.key ∈ c.ops := List.mem_of_getElem? here
    simp [opMatches, found, reading_own mem block time here later, member]

end Calls

end Hex.Kernel.Session
