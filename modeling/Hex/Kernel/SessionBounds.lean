/-
# Kernel.SessionBounds — when the registries stay in their arrays

Nothing in `addPlanTree` and `jit_compile_expr` looks whether an array is full.
`arrays_kept_iff` says exactly when a sequence of statements stays in them, whatever
the allocator does with freed records.

A statement fills a record for each node the walks reach. In `currentExprList` it
needs a slot for each (expression, operator) whose operator has a record, and one
for every single call whose operator has none: an entry without an operator is
never found again. A repetition adds to the slots of the runs before it, because
their pointers may read anything.
-/
import Hex.Kernel.SessionCalls

namespace Hex.Kernel.Session

open ExprTable PlanRecords Theory.CText Theory.Registry
open JitRouting (Operator exprMaxNum)

structure SlotKey (D : Type) where
  expressionId : Nat
  hash : Int
  stepLens : Nat
  op : Operator D
  deriving DecidableEq

section Bounds

variable {D : Type} [DecidableEq D] {call' : Nat × Call D} {table : Table} {events : List (Event D)} {tr : Trace D}
  {slots : List Slot}

def Call.slotKey (c : Call D) : Option (SlotKey D) :=
  if c.key ∈ c.ops then some ⟨c.expressionId, calculateHash c.steps, c.steps.length, c.key⟩ else none

/-- What an entry of `currentSQLExprs` is looked up under. -/
def SlotKey.info (k : SlotKey D) : Int × Nat × Operator D := (k.hash, k.stepLens, k.op)

def Trace.slotsNeeded (tr : Trace D) : Nat := needed (tr.calls.reduceOption.map Call.slotKey)

/-- A sequence of statements fits: every statement stays in the table of expressions,
its plans have at most `OPT_LIST_SIZE` nodes, no expression with a slot has more than
`EXPR_SIZE` steps, and the slots of a statement and of its repetitions are at most
`EXPR_MAX_NUM`. `used` are the slots of the current statement so far. -/
def Fits : Table → Option Text → Nat → List (Query D) → Prop
  | _, _, _, [] => True
  | table, current, used, q :: rest =>
    let current' := if isRepetition current q.text then current else some q.text
    let used' := if isRepetition current q.text then used else 0
    if containExpr q.text then
      ∃ tr, trace table [] (acts q.events) = some tr ∧ tr.ops.length ≤ optListSize ∧
        (∀ c, some c ∈ tr.calls → c.steps.length ≤ exprSize) ∧
        used' + tr.slotsNeeded ≤ exprMaxNum ∧
        Fits tr.table current' (used' + tr.slotsNeeded) rest
    else Fits table current' used' rest

/-! ## One statement -/

/-- When two calls have one key, or one part `f` of it that has the operator. -/
lemma Call.slotKey_map_eq {K : Type} {f : SlotKey D → K} (own : ∀ {a b}, f a = f b → a.op = b.op) {c c' : Call D}
    (later : c.ops <+: c'.ops) : (c.slotKey.map f ≠ none ∧ c.slotKey.map f = c'.slotKey.map f) ↔
      c.key ∈ c.ops ∧ f ⟨c.expressionId, calculateHash c.steps, c.steps.length, c.key⟩ =
        f ⟨c'.expressionId, calculateHash c'.steps, c'.steps.length, c'.key⟩ := by
  unfold Call.slotKey
  by_cases member : c.key ∈ c.ops
  · by_cases member' : c'.key ∈ c'.ops
    · simp [member, member']
    · simp only [member, member', if_true, if_false, Option.map_some, Option.map_none, reduceCtorEq, and_false,
        true_and, false_iff]
      intro same
      have key : c.key = c'.key := own same
      exact member' (key ▸ later.subset member)
  · simp [member]

lemma keyed_slot (mem : Memory D) (block : Nat) {call : Nat × Call D}
    (later : call.2.ops <+: call'.2.ops) (valid : call'.2.key.type ≠ 0) :
    Keyed (slotRequest mem block) (fun call => call.2.slotKey) call call' := by
  have own : opMatches mem block call'.1 call'.2 (call.2.op block) (call'.2.key.optId = 0 && call'.2.key.type = 0) =
      true ↔ call.2.key ∈ call.2.ops ∧ call.2.key = call'.2.key :=
    opMatches_own mem block call'.1 later (by simp [valid])
  have same := Call.slotKey_map_eq (f := id) (fun eq => congrArg SlotKey.op eq) later
  simp only [Option.map_id, id_eq, SlotKey.mk.injEq] at same
  simp only [Keyed, slotRequest, Bool.and_eq_true, decide_eq_true_eq, own, same]
  tauto

lemma keyed_info (mem : Memory D) (block : Nat) {call : Nat × Call D}
    (later : call.2.ops <+: call'.2.ops) (valid : call'.2.key.type ≠ 0) :
    Keyed (infoRequest mem block) (fun call => call.2.slotKey.map SlotKey.info) call call' := by
  have own : opMatches mem block call'.1 call'.2 (call.2.op block) (call'.2.key.type = 0) = true ↔
      call.2.key ∈ call.2.ops ∧ call.2.key = call'.2.key := opMatches_own mem block call'.1 later (by simp [valid])
  have same := Call.slotKey_map_eq (f := SlotKey.info) (fun eq => congrArg (·.2.2) eq) later
  simp only [SlotKey.info, Prod.mk.injEq] at same
  simp only [Keyed, infoRequest, Bool.and_eq_true, decide_eq_true_eq, own]
  tauto

omit [DecidableEq D] in
/-- The calls of a statement see more and more records, and belong to plan nodes. -/
lemma timed_pairwise (ran : trace table [] (acts events) = some tr) (time : Nat) :
    (timed time tr.calls).reduceOption.Pairwise fun call call' =>
      call.2.ops <+: call'.2.ops ∧ call'.2.key.type ≠ 0 := by
  have pairs : ((timed time tr.calls).reduceOption.map Prod.snd).Pairwise fun c c' => c.ops <+: c'.ops := by
    rw [timed_calls]
    exact trace_pairwise ran
  exact (List.pairwise_map.mp pairs).imp_of_mem fun _ member later =>
    ⟨later, key_type_ne ran _ (mem_of_timed member)⟩

/-- **The slots of a statement grow by what it needs at most**, and by all of it when
no old slot is found. -/
theorem length_slots (mem : Memory D) (block time : Nat) (ran : trace table [] (acts events) = some tr) (slots : List Slot) :
    (placeAll slots ((timed time tr.calls).map (Option.map (slotRequest mem block)))).1.length ≤
        slots.length + tr.slotsNeeded ∧
      ((∀ call ∈ (timed time tr.calls).reduceOption, ∀ slot ∈ slots,
          (slotRequest mem block call).accepts slot = false) →
        (placeAll slots ((timed time tr.calls).map (Option.map (slotRequest mem block)))).1.length =
          slots.length + tr.slotsNeeded) := by
  have keyed : (timed time tr.calls).reduceOption.Pairwise (Keyed (slotRequest mem block) fun call => call.2.slotKey) :=
    (timed_pairwise ran time).imp fun h => keyed_slot mem block h.1 h.2
  have keys : (timed time tr.calls).reduceOption.map (fun call => call.2.slotKey) =
      tr.calls.reduceOption.map Call.slotKey := by
    rw [← timed_calls time, List.map_map]
    rfl
  rw [placeAll_timed, Trace.slotsNeeded, ← keys]
  exact ⟨length_enterAll_le slots keyed, length_enterAll_eq slots keyed⟩

/-- The entries a statement needs in `currentSQLExprs`. -/
def Trace.infosNeeded (tr : Trace D) : Nat :=
  needed ((tr.calls.reduceOption.map Call.slotKey).map (Option.map SlotKey.info))

lemma length_infos (mem : Memory D) (block time : Nat) (ran : trace table [] (acts events) = some tr) :
    (placeAll [] ((timed time tr.calls).map (Option.map (infoRequest mem block)))).1.length = tr.infosNeeded := by
  have keyed : (timed time tr.calls).reduceOption.Pairwise
      (Keyed (infoRequest mem block) fun call => call.2.slotKey.map SlotKey.info) :=
    (timed_pairwise ran time).imp fun h => keyed_info mem block h.1 h.2
  have keys : (timed time tr.calls).reduceOption.map (fun call => call.2.slotKey.map SlotKey.info) =
      (tr.calls.reduceOption.map Call.slotKey).map (Option.map SlotKey.info) := by
    rw [← timed_calls time, List.map_map, List.map_map]
    rfl
  have all := length_enterAll_eq [] keyed fun call _ info member => by cases member
  rw [keys, List.length_nil, Nat.zero_add] at all
  rw [placeAll_timed]
  exact all

/-- A statement needs no more entries in `currentSQLExprs` than slots. -/
lemma infosNeeded_le (tr : Trace D) : tr.infosNeeded ≤ tr.slotsNeeded :=
  needed_map_le SlotKey.info _

/-- An entry of `currentSQLExprs` has the steps of a call, and each call has an entry
with as many steps. -/
lemma steps_infos (mem : Memory D) (block time : Nat) (calls : List (Option (Call D))) :
    (∀ info ∈ (placeAll [] ((timed time calls).map (Option.map (infoRequest mem block)))).1,
        info.steps.length ≤ exprSize) ↔ ∀ c, some c ∈ calls → c.steps.length ≤ exprSize := by
  constructor
  · intro short c member
    obtain ⟨time', timedMember⟩ := timed_mem time member
    have request : some (infoRequest mem block (time', c)) ∈
        (timed time calls).map (Option.map (infoRequest mem block)) :=
      List.mem_map.mpr ⟨_, timedMember, rfl⟩
    obtain ⟨info, inside, answered⟩ := exists_answer [] request
    have bound := short info inside
    obtain accepted | rfl := answered
    · simp only [infoRequest, Bool.and_eq_true, decide_eq_true_eq] at accepted
      rw [← accepted.1.2]
      exact bound
    · exact bound
  · intro short info member
    rw [placeAll_timed] at member
    obtain old | ⟨r, inside, rfl⟩ := mem_enterAll member
    · cases old
    · obtain ⟨call, here, rfl⟩ := List.mem_map.mp inside
      exact short call.2 (mem_of_timed here)

/-- **When a statement with expressions stays in the arrays.** -/
theorem inside_answer_iff (mem : Memory D) (s : Shape D) (query : Text) (ran : trace table [] (acts events) = some tr) :
    ((s.begin query).answer mem tr).1.Inside ↔ tr.ops.length ≤ optListSize ∧
      tr.infosNeeded ≤ exprMaxNum ∧ (∀ c, some c ∈ tr.calls → c.steps.length ≤ exprSize) ∧
      ((s.begin query).answer mem tr).1.slots.length ≤ exprMaxNum := by
  rw [Shape.inside_iff, ← steps_infos mem (s.block + 1) s.tick tr.calls,
    ← length_infos mem (s.block + 1) s.tick ran]
  rfl

/-! ## A sequence of statements -/

lemma execSimpleQuery_plain [Zero D] (mem : Memory D) (s : State D) {q : Query D}
    (plain : containExpr q.text = false) : execSimpleQuery mem s q = some (beginQuery s q.text, []) := by
  simp [execSimpleQuery, plain]

omit [DecidableEq D] in
lemma inside_beginQuery [Zero D] {s : State D} {query : Text} (inside : (shape s).Inside)
    (plain : containExpr query = false) : (shape (beginQuery s query)).Inside where
  ops := by
    have kept : (shape (beginQuery s query)).ops = (shape s).ops := by simp [shape, beginQuery, plain]
    rw [kept]
    exact inside.ops
  infos := Nat.zero_le _
  steps info member := by cases member
  slots := Shape.length_begin query inside.slots

/-- **A sequence that fits stays in the arrays.** -/
theorem execQueries_of_fits [Zero D] (mem : Memory D) (qs : List (Query D)) {s : State D}
    {used : Nat} (inside : (shape s).Inside) (few : s.currentExprList.length ≤ used)
    (fits : Fits s.table s.currentStatement used qs) : ∃ s', execQueries mem s qs = some s' ∧ (shape s').Inside := by
  induction qs generalizing s used with
  | nil => exact ⟨s, rfl, inside⟩
  | cons q rest ih =>
    have left : (if isRepetition s.currentStatement q.text then s.currentExprList else []).length ≤
        if isRepetition s.currentStatement q.text then used else 0 := by
      split_ifs
      · exact few
      · exact Nat.le_refl 0
    simp only [Fits] at fits
    cases expressions : containExpr q.text with
    | false =>
      simp only [expressions, Bool.false_eq_true, if_false] at fits
      obtain ⟨s', ran, last⟩ := ih (inside_beginQuery inside expressions) left fits
      exact ⟨s', by simpa [execQueries, execSimpleQuery_plain mem s expressions] using ran, last⟩
    | true =>
      simp only [expressions, if_true] at fits
      obtain ⟨tr, traced, nodes, short, room, later⟩ := fits
      have slots := (length_slots mem (s.block + 1) s.tick traced
        (if isRepetition s.currentStatement q.text then s.currentExprList else [])).1
      have infos := infosNeeded_le tr
      have kept : (((shape s).begin q.text).answer mem tr).1.Inside :=
        (inside_answer_iff mem (shape s) q.text traced).mpr
          ⟨nodes, infos.trans (by omega), short, slots.trans (by omega)⟩
      obtain ⟨s1, indices, ran, answered⟩ :=
        execSimpleQuery_of_trace expressions (Shape.length_begin q.text inside.slots) traced kept
      have after := congrArg Prod.fst answered
      have table : s1.table = tr.table := congrArg Shape.table after.symm
      have statement : s1.currentStatement =
          if isRepetition s.currentStatement q.text then s.currentStatement else some q.text :=
        congrArg Shape.currentStatement after.symm
      have slots1 : s1.currentExprList = _ := congrArg Shape.slots after.symm
      obtain ⟨s', ran', last⟩ := ih (after ▸ kept) (slots1 ▸ slots.trans (by omega)) (table ▸ statement ▸ later)
      exact ⟨s', by simpa [execQueries, ran] using ran', last⟩

/-- An allocator that clears what it frees. -/
def cleared [Zero D] : Memory D := fun _ _ => ⟨0, 0, 0, 0⟩

def Allocated (block : Nat) (slots : List Slot) : Prop :=
  ∀ slot ∈ slots, ∀ p, slot.op = some p → p.block ≤ block

/-- A slot of an earlier statement is not found in cleared memory. -/
lemma cleared_rejects [Zero D] {block : Nat} (old : Allocated block slots)
    {call : Nat × Call D} (valid : call.2.key.type ≠ 0) {slot : Slot} (member : slot ∈ slots) :
    (slotRequest cleared (block + 1) call).accepts slot = false := by
  have never : opMatches cleared (block + 1) call.1 call.2 slot.op
      (call.2.key.optId = 0 && call.2.key.type = 0) = false := by
    cases pointer : slot.op with
    | none => simp [opMatches, valid]
    | some p =>
      have freed := old slot member p pointer
      have away : p.block ≠ block + 1 := by omega
      have other : cleared call.1 p ≠ call.2.key := fun same => valid (same ▸ rfl)
      simp [opMatches, reading, away, other]
  simp [slotRequest, never]

lemma Allocated.answer {mem : Memory D} {block time : Nat}
    (old : Allocated block slots) (calls : List (Option (Call D))) : Allocated (block + 1)
      (placeAll slots ((timed time calls).map (Option.map (slotRequest mem (block + 1))))).1 := by
  intro slot member p pointer
  rw [placeAll_timed] at member
  obtain known | ⟨r, inside, rfl⟩ := mem_enterAll member
  · exact (old slot known p pointer).trans (Nat.le_succ block)
  · obtain ⟨call, _, rfl⟩ := List.mem_map.mp inside
    obtain ⟨null, _⟩ | ⟨i, found, _⟩ := call.2.op_cases (block + 1)
    · rw [slotRequest] at pointer
      exact absurd (null.symm.trans pointer) (by simp)
    · rw [slotRequest] at pointer
      cases found.symm.trans pointer
      exact le_rfl

/-- **A sequence that stays in the arrays in cleared memory fits.** -/
theorem fits_of_execQueries [Zero D] (qs : List (Query D)) {s s' : State D}
    (inside : (shape s).Inside) (old : Allocated s.block s.currentExprList)
    (ran : execQueries cleared s qs = some s') : Fits s.table s.currentStatement s.currentExprList.length qs := by
  induction qs generalizing s with
  | nil => trivial
  | cons q rest ih =>
    have left : Allocated s.block (if isRepetition s.currentStatement q.text then s.currentExprList else []) := by
      split_ifs
      · exact old
      · exact fun slot member => by cases member
    have count : (if isRepetition s.currentStatement q.text then s.currentExprList else []).length =
        if isRepetition s.currentStatement q.text then s.currentExprList.length else 0 := by
      split_ifs <;> rfl
    simp only [execQueries] at ran
    split at ran
    · cases ran
    rename_i s1 indices first
    simp only [Fits, ← count]
    cases expressions : containExpr q.text with
    | false =>
      rw [execSimpleQuery_plain cleared s expressions] at first
      cases first
      have later := ih (inside_beginQuery inside expressions) (by
        simpa [beginQuery, expressions] using left) ran
      simpa [beginQuery] using later
    | true =>
      obtain ⟨tr, traced, answered, kept⟩ :=
        execSimpleQuery_some expressions (Shape.length_begin q.text inside.slots) first
      have after := congrArg Prod.fst answered
      have slots := (length_slots cleared (s.block + 1) s.tick traced
        (if isRepetition s.currentStatement q.text then s.currentExprList else [])).2
        fun call member slot => cleared_rejects left (key_type_ne traced _ (mem_of_timed member))
      have slots1 : s1.currentExprList = _ := congrArg Shape.slots after.symm
      have table : s1.table = tr.table := congrArg Shape.table after.symm
      have statement : s1.currentStatement = _ := congrArg Shape.currentStatement after.symm
      have block : s1.block = s.block + 1 := congrArg Shape.block after.symm
      obtain ⟨nodes, _, short, room⟩ :=
        (inside_answer_iff cleared (shape s) q.text traced).mp (after ▸ kept)
      have later := ih kept (by
        rw [block, slots1]
        exact left.answer tr.calls) ran
      refine ⟨tr, traced, nodes, short, slots ▸ room, ?_⟩
      rw [table, statement, slots1] at later
      exact slots ▸ later

/-- **The registries stay in their arrays, whatever freed records read, exactly when
the sequence fits.** -/
theorem arrays_kept_iff [Zero D] (table : Table) (qs : List (Query D)) :
    (∀ mem : Memory D, ∃ s, execQueries mem (start table) qs = some s ∧
        s.currentSQLOpts.length ≤ optListSize ∧ s.currentSQLExprs.length ≤ exprMaxNum ∧
        s.currentExprList.length ≤ exprMaxNum) ↔
      Fits table none 0 qs := by
  have inside : (shape (start table : State D)).Inside :=
    ⟨Nat.zero_le _, Nat.zero_le _, fun info member => by (cases member), Nat.zero_le _⟩
  constructor
  · intro kept
    obtain ⟨s, ran, _⟩ := kept cleared
    exact fits_of_execQueries qs inside (fun slot member => by cases member) ran
  · intro fits mem
    obtain ⟨s, ran, last⟩ := execQueries_of_fits mem qs inside (Nat.le_refl 0) fits
    exact ⟨s, ran, by simpa [shape] using last.ops, by simpa [shape] using last.infos, last.slots⟩

end Bounds

/-- A plan of `n` nodes, one below the other. -/
def chain : Nat → Plan Nat
  | 0 => .null
  | n + 1 => .node ⟨n, .subqueryScan, 0, 0, 0⟩ (chain n) .null []

lemma size_chain (n : Nat) : (chain n).size = n := by
  induction n with
  | zero => rfl
  | succ n ih => simp [chain, Plan.size, ih]

lemma planned_leaves {text : Text} (expressions : containExpr text = true) {stmt : PlannedStmt Nat}
    (large : optListSize < stmt.size) (table : Table) (mem : Memory Nat) :
    execQueries mem (start table) [⟨text, [.planned stmt]⟩] = none := by
  have left : planQuery stmt [] = none := by
    rw [planQuery_eq _ (Nat.zero_le _), if_neg]
    rw [List.length_nil]
    omega
  simp [execQueries, execSimpleQuery, expressions, run, step, beginQuery, left]

/-- A plan of 65 nodes is written behind the end of `currentSQLOpts`. -/
theorem deep_plan_leaves : execQueries (fun _ _ => ⟨0, 0, 0, 0⟩) (start (initial fun _ _ => 0))
    [⟨"SELECT 1".toList, [.planned ⟨chain 65, []⟩]⟩] = none := by
  have size : (⟨chain 65, []⟩ : PlannedStmt Nat).size = 65 := by
    show ([chain 65].map Plan.size).sum = 65
    simp only [List.map_cons, List.map_nil, size_chain]
    rfl
  exact planned_leaves (by decide) (by rw [size]; decide) _ _

end Hex.Kernel.Session
