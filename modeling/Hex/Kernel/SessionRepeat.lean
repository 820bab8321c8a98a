/-
# Kernel.SessionRepeat — a statement that is issued again and again

The level of an expression is stored under its slot, and the search over the levels
needs that an expression has the same `list_index` in every run of a repeated
statement. `stable_iff` says exactly when that is so.

A slot whose operator has no record is never found again, and one whose operator has
a record is found when the freed memory happens to hold the operator at the time of the
call. An expression whose hash is 0 gets a new number in every call, and with it a new
slot. Everything else is stable: the table gives the same numbers (`trace_again`).
-/
import Hex.Kernel.SessionBounds

namespace Hex.Kernel.Session

open ExprTable PlanRecords Theory.CText Theory.Registry
open Theory.ProbeTable (lookup lookup_hit_iff lookup_cases after_lt)
open JitRouting (Operator exprMaxNum)

/-! ## The table in a repetition -/

/-- A later table: it has every entry of the earlier one, with its number. -/
structure Grows (t t' : Table) : Prop where
  count : t.exprNum ≤ t'.exprNum
  kept : ∀ i k, t.keys i = some k → t'.keys i = some k ∧ (t'.exprTypes i).expressionId = (t.exprTypes i).expressionId

lemma Grows.refl (t : Table) : Grows t t := ⟨le_rfl, fun _ _ stored => ⟨stored, rfl⟩⟩

lemma Grows.trans {t t' t'' : Table} (first : Grows t t') (second : Grows t' t'') : Grows t t'' where
  count := first.count.trans second.count
  kept i k stored := by
    obtain ⟨stored', number⟩ := first.kept i k stored
    obtain ⟨stored'', number'⟩ := second.kept i k stored'
    exact ⟨stored'', number'.trans number⟩

/-- What a call of `add_expression` returns: the entry of its key, a new number for a
sequence whose hash is 0, or NULL when all entries are taken. -/
inductive Added (t t' : Table) (steps : List Int) : Option Nat → Prop where
  | entry (i : Nat) (bound : i < exprListSize) (stored : t'.keys i = some (key steps)) :
      Added t t' steps (some i)
  | unmarked (i : Nat) (zero : calculateHash steps = 0) (short : steps.length ≤ exprSize)
      (number : (t'.exprTypes i).expressionId = t.exprNum + 1) (count : t'.exprNum = t.exprNum + 1) :
      Added t t' steps (some i)
  | full (taken : ∀ i, i < exprListSize → ∃ other, t.keys i = some other ∧ other ≠ key steps) :
      Added t t' steps none

section Table

variable {log : List (List Int)} {t t' : Table} {steps : List Int} {r : Option Nat}

lemma addExpression_added (refines : Refines log t) (ran : addExpression t steps = some (t', r)) :
    t.exprNum ≤ t'.exprNum ∧ Added t t' steps r := by
  cases (addExpression_returned refines.unused ran).2 with
  | hit _ inside stored => exact ⟨le_rfl, .entry _ inside stored⟩
  | free _ inside empty short =>
    refine ⟨Nat.le_succ _, ?_⟩
    by_cases zero : calculateHash steps = 0
    · exact .unmarked _ zero short (by simp [store]) rfl
    · exact .entry _ inside (by rw [keys_store t _ steps empty, if_neg zero, Function.update_self])
  | full _ taken => exact ⟨le_rfl, .full taken⟩

/-- **A call keeps every entry.** -/
theorem addExpression_grows (refines : Refines log t) (ran : addExpression t steps = some (t', r)) : Grows t t' where
  count := (addExpression_added refines ran).1
  kept i k stored := by
    have same := (addExpression_kept refines ran).2 i (keys_eq_some.mp stored).1
    exact ⟨by simpa only [Table.keys, same] using stored, congrArg _ same⟩

/-- **A call with the same steps in a later table returns the same entry**, unless the
hash is 0, and NULL again when it returned NULL. -/
theorem addExpression_again {log1 : List (List Int)} {t1 : Table} (refines : Refines log t)
    (ran : addExpression t steps = some (t', r)) (refines1 : Refines log1 t1) (later : Grows t' t1) :
    ∃ t2 r2, addExpression t1 steps = some (t2, r2) ∧ (r = none → r2 = none) ∧
      (calculateHash steps ≠ 0 → r2 = r ∧ ∀ i, r = some i →
        (t2.exprTypes i).expressionId = (t'.exprTypes i).expressionId) := by
  have bound := home_lt (key steps)
  have again := addExpression_eq (t := t1) (addExpression_returned refines.unused ran).1 refines1.unused
  cases (addExpression_added refines ran).2 with
  | entry i inside stored =>
    obtain ⟨stored1, number⟩ := later.kept i _ stored
    rw [(lookup_hit_iff refines1.reached bound).mpr ⟨inside, stored1⟩] at again
    refine ⟨t1, some i, again, by simp, fun _ => ⟨rfl, ?_⟩⟩
    rintro j ⟨⟩
    exact number
  | unmarked i zero short number count =>
    cases outcome : lookup exprListSize home t1.keys (key steps) with
    | hit j =>
      rw [outcome] at again
      exact ⟨t1, some j, again, by simp, fun nonzero => absurd zero nonzero⟩
    | free j =>
      rw [outcome] at again
      exact ⟨_, some j, again.trans (if_pos short), by simp, fun nonzero => absurd zero nonzero⟩
    | full =>
      rw [outcome] at again
      exact ⟨_, none, again, by simp, fun nonzero => absurd zero nonzero⟩
  | full taken =>
    have before := (addExpression_grows refines ran).trans later
    have full : lookup exprListSize home t1.keys (key steps) = .full := by
      obtain ⟨c, _, _, stored⟩ | ⟨c, _, _, empty, _⟩ | ⟨full, _⟩ := lookup_cases t1.keys bound
      · obtain ⟨other, there, differs⟩ := taken _ (after_lt (by decide) c)
        rw [(before.kept _ other there).1] at stored
        exact absurd (Option.some.inj stored) differs
      · obtain ⟨other, there, _⟩ := taken _ (after_lt (by decide) c)
        rw [(before.kept _ other there).1] at empty
        cases empty
      · exact full
    rw [full] at again
    exact ⟨_, none, again, fun _ => rfl, fun _ => ⟨rfl, by simp⟩⟩

end Table

/-! ## The calls in a repetition -/

/-- An expression that is handed over: its operator, its steps, and the records there
are at the time. -/
structure Site (D : Type) where
  op : Option (Operator D)
  steps : List Int
  ops : List (Operator D)

section Trace

variable {D : Type} {log : List (List Int)} {table : Table} {ops : List (Operator D)} {as : List (Act D)}
  {tr : Trace D} {c : Call D}

def sites : List (Operator D) → List (Act D) → List (Site D)
  | _, [] => []
  | ops, .plan keys :: rest => sites (ops ++ keys) rest
  | ops, .expr op steps :: rest => ⟨op, steps, ops⟩ :: sites ops rest

lemma length_sites (ran : trace table ops as = some tr) : tr.calls.length = (sites ops as).length := by
  induction as generalizing table ops tr with
  | nil =>
    cases ran
    rfl
  | cons a rest ih =>
    cases a with
    | plan keys => exact ih ran
    | expr op steps =>
      obtain ⟨_, _, tr', _, ran', _, _, calls⟩ := trace_expr ran
      rw [calls, List.length_cons, ih ran', sites, List.length_cons]

lemma site_of_call (ran : trace table ops as = some tr) {i : Nat} (here : tr.calls[i]? = some (some c)) :
    (sites ops as)[i]? = some ⟨some c.key, c.steps, c.ops⟩ := by
  induction as generalizing table ops tr i with
  | nil =>
    cases ran
    simp at here
  | cons a rest ih =>
    cases a with
    | plan keys => exact ih ran here
    | expr op steps =>
      obtain ⟨_, _, tr', _, ran', _, _, calls⟩ := trace_expr ran
      rw [calls] at here
      cases i with
      | zero =>
        obtain ⟨_, key, _, rfl, rfl⟩ := callOf_eq_some.mp (Option.some.inj here)
        rfl
      | succ i => exact ih ran' here

lemma ops_of_later (ran : trace table ops as = some tr) {i j : Nat} {d : Call D} (less : i < j)
    (first : tr.calls[i]? = some (some c)) (second : tr.calls[j]? = some (some d)) : c.ops <+: d.ops := by
  induction as generalizing table ops tr i j with
  | nil =>
    cases ran
    simp at first
  | cons a rest ih =>
    cases a with
    | plan keys => exact ih ran less first second
    | expr op steps =>
      obtain ⟨_, _, tr', _, ran', _, _, calls⟩ := trace_expr ran
      rw [calls] at first second
      obtain ⟨j, rfl⟩ : ∃ n, j = n + 1 := ⟨j - 1, by omega⟩
      cases i with
      | zero =>
        obtain ⟨_, key, _, rfl, rfl⟩ := callOf_eq_some.mp (Option.some.inj first)
        exact (trace_call ran' (List.mem_of_getElem? second)).1
      | succ i => exact ih ran' (by omega) first second

lemma trace_grows (refines : Refines log table) (ran : trace table ops as = some tr) :
    (∃ log', Refines log' tr.table) ∧ Grows table tr.table := by
  induction as generalizing table ops tr log with
  | nil =>
    cases ran
    exact ⟨⟨log, refines⟩, .refl table⟩
  | cons a rest ih =>
    cases a with
    | plan keys => exact ih refines ran
    | expr op steps =>
      obtain ⟨_, _, tr', added, ran', tableEq, _, _⟩ := trace_expr ran
      obtain ⟨log', refines'⟩ := (addExpression_kept refines added).1
      obtain ⟨last, grows⟩ := ih refines' ran'
      rw [tableEq]
      exact ⟨last, (addExpression_grows refines added).trans grows⟩

/-- The number of a call: that of the entry of its steps, or a new one when their
hash is 0. -/
structure Numbered (before after : Table) (c : Call D) : Prop where
  old : c.expressionId ≤ after.exprNum
  entry : calculateHash c.steps ≠ 0 → ∃ i, i < exprListSize ∧
    after.keys i = some (key c.steps) ∧ (after.exprTypes i).expressionId = c.expressionId
  fresh : calculateHash c.steps = 0 → before.exprNum < c.expressionId

lemma trace_numbered (refines : Refines log table) (ran : trace table ops as = some tr) (member : some c ∈ tr.calls) :
    Numbered table tr.table c := by
  induction as generalizing table ops tr log with
  | nil =>
    cases ran
    cases member
  | cons a rest ih =>
    cases a with
    | plan keys => exact ih refines ran member
    | expr op steps =>
      obtain ⟨t', entry, tr', added, ran', tableEq, _, calls⟩ := trace_expr ran
      obtain ⟨log', refines'⟩ := (addExpression_kept refines added).1
      have grows := (trace_grows refines' ran').2
      rw [calls] at member
      rw [tableEq]
      obtain here | later := List.mem_cons.mp member
      · obtain ⟨i, key', rfl, _, rfl⟩ := callOf_eq_some.mp here.symm
        cases (addExpression_added refines added).2 with
        | entry _ inside stored =>
          obtain ⟨stored', number⟩ := grows.kept i _ stored
          obtain ⟨m, s, logged, _, id, _⟩ := refines'.entry i _ inside stored
          have bound := (List.getElem?_eq_some_iff.mp logged).1
          have count := refines'.count
          refine ⟨?_, fun _ => ⟨i, inside, stored', number⟩, fun zero => ?_⟩
          · show (t'.exprTypes i).expressionId ≤ tr'.table.exprNum
            have := grows.count
            omega
          · exact absurd zero (by
              obtain ⟨nonzero, eq⟩ := keys_eq_some.mp stored
              exact fun zero => nonzero ((congrArg Prod.fst eq).symm.trans zero))
        | unmarked _ zero _ number count =>
          refine ⟨?_, fun nonzero => absurd zero nonzero, fun _ => ?_⟩
          · show (t'.exprTypes i).expressionId ≤ tr'.table.exprNum
            have := grows.count
            omega
          · show table.exprNum < (t'.exprTypes i).expressionId
            omega
      · obtain ⟨old, entry', fresh⟩ := ih refines' ran' later
        exact ⟨old, entry', fun zero =>
          (addExpression_grows refines added).count.trans_lt (fresh zero)⟩

/-- **A statement makes the same calls in a later table**, when none of them has the
hash 0. -/
theorem trace_again {log1 : List (List Int)} {table1 : Table} (refines : Refines log table)
    (ran : trace table ops as = some tr) (marked : ∀ c, some c ∈ tr.calls → calculateHash c.steps ≠ 0)
    (refines1 : Refines log1 table1) (later : Grows tr.table table1) :
    ∃ tr1, trace table1 ops as = some tr1 ∧ tr1.calls = tr.calls ∧ tr1.ops = tr.ops := by
  induction as generalizing table ops tr log table1 log1 with
  | nil =>
    cases ran
    exact ⟨_, rfl, rfl, rfl⟩
  | cons a rest ih =>
    cases a with
    | plan keys => exact ih refines ran marked refines1 later
    | expr op steps =>
      obtain ⟨t', entry, tr', added, ran', tableEq, opsEq, calls⟩ := trace_expr ran
      obtain ⟨log', refines'⟩ := (addExpression_kept refines added).1
      rw [tableEq] at later
      obtain ⟨t2, entry2, added2, null, same⟩ := addExpression_again refines added refines1
        ((trace_grows refines' ran').2.trans later)
      obtain ⟨log2, refines2⟩ := (addExpression_kept refines1 added2).1
      obtain ⟨tr2, ran2, calls2, ops2⟩ := ih refines' ran'
        (fun c member => marked c (calls ▸ List.mem_cons_of_mem _ member)) refines2
        (later.trans (addExpression_grows refines1 added2))
      have call : callOf t2 ops op steps entry2 = callOf t' ops op steps entry := by
        cases entry with
        | none =>
          rw [null rfl]
          rfl
        | some i =>
          cases op with
          | none => cases entry2 <;> rfl
          | some key' =>
            have nonzero := marked ⟨(t'.exprTypes i).expressionId, steps, key', ops⟩ (by
              rw [calls]
              exact List.mem_cons_self)
            obtain ⟨rfl, number⟩ := same nonzero
            simp [callOf, number i rfl]
      refine ⟨{ tr2 with calls := callOf t2 ops op steps entry2 :: tr2.calls }, ?_, ?_, ?_⟩
      · simp [trace, added2, ran2]
      · rw [calls, call, calls2]
      · rw [opsEq, ← ops2]

end Trace

/-! ## The slots in a repetition -/

section Slots

variable {D : Type} [DecidableEq D] {table : Table} {ops : List (Operator D)} {as : List (Act D)} {tr : Trace D}
  {d : Call D} {slots : List Slot}

def Call.slot (block : Nat) (c : Call D) : Slot :=
  ⟨c.expressionId, c.op block, c.steps.length, calculateHash c.steps⟩

def Slot.For (slot : Slot) (c : Call D) : Prop :=
  slot.expressionId = c.expressionId ∧ slot.hash = calculateHash c.steps ∧ slot.stepLens = c.steps.length

omit [DecidableEq D] in
lemma getElem?_timed (time : Nat) (calls : List (Option (Call D))) (i : Nat) :
    (timed time calls)[i]? = calls[i]?.map (Option.map fun c => (time + i + 1, c)) := by
  induction calls generalizing time i with
  | nil => simp [timed]
  | cons c rest ih =>
    cases i with
    | zero => simp [timed]
    | succ i =>
      have shift : time + 1 + i + 1 = time + (i + 1) + 1 := by omega
      simp only [timed, List.getElem?_cons_succ, ih (time + 1) i, shift]

def slotRequests (mem : Memory D) (block time : Nat) (calls : List (Option (Call D))) :
    List (Option (Request Slot)) :=
  (timed time calls).map (Option.map (slotRequest mem block))

lemma getElem?_slotRequests (mem : Memory D) (block time : Nat) (calls : List (Option (Call D)))
    (i : Nat) : (slotRequests mem block time calls)[i]? =
      calls[i]?.map (Option.map fun c => slotRequest mem block (time + i + 1, c)) := by
  rw [slotRequests, List.getElem?_map, getElem?_timed]
  cases calls[i]? with
  | none => rfl
  | some c => cases c <;> rfl

lemma length_slotRequests (mem : Memory D) (block time : Nat) (calls : List (Option (Call D))) :
    (slotRequests mem block time calls).length = calls.length := by
  rw [slotRequests, List.length_map]
  induction calls generalizing time with
  | nil => rfl
  | cons c rest ih => simp [timed, ih (time + 1)]

/-- The slots of the first run of a statement, and the indices of its calls. -/
abbrev Trace.placed (tr : Trace D) (mem : Memory D) (block time : Nat) : List Slot × List (Option Nat) :=
  placeAll [] (slotRequests mem block time tr.calls)

/-- A call accepts the slot of an earlier call of its statement when it is for the
same expression in the same operator, and that has a record. -/
lemma accepts_own (mem : Memory D) (block time : Nat) {c : Call D} (earlier : d.ops <+: c.ops)
    (valid : c.key.type ≠ 0) :
    (slotRequest mem block (time, c)).accepts (d.slot block) = true ↔
      (d.slot block).For c ∧ d.key ∈ d.ops ∧ d.key = c.key := by
  have own : opMatches mem block time c (d.op block) (c.key.optId = 0 && c.key.type = 0) = true ↔
      d.key ∈ d.ops ∧ d.key = c.key := opMatches_own mem block time earlier (by simp [valid])
  simp only [slotRequest, Call.slot, Bool.and_eq_true, decide_eq_true_eq, own, Slot.For, and_assoc]

/-- In a repetition it accepts a slot when the freed record reads as its operator. -/
lemma accepts_freed (mem : Memory D) {block : Nat} (time : Nat) {c : Call D} {slot : Slot}
    (freed : ∀ p, slot.op = some p → p.block ≠ block) (valid : c.key.type ≠ 0) :
    (slotRequest mem block (time, c)).accepts slot = true ↔
      slot.For c ∧ ∃ p, slot.op = some p ∧ mem time p = c.key := by
  have reads : opMatches mem block time c slot.op (c.key.optId = 0 && c.key.type = 0) = true ↔
      ∃ p, slot.op = some p ∧ mem time p = c.key := by
    cases pointer : slot.op with
    | none => simp [opMatches, valid]
    | some p => simp [opMatches, reading, freed p pointer]
  simp only [slotRequest, Bool.and_eq_true, decide_eq_true_eq, reads, Slot.For, and_assoc]

/-- A slot of the first run: it is that of a call `d`, which is the call itself or an
earlier one for the same expression in the same operator. -/
structure SlotOf (block : Nat) (tr : Trace D) (slots : List Slot) (c : Call D) (j : Nat)
    (d : Call D) : Prop where
  member : some d ∈ tr.calls
  here : slots[j]? = some (d.slot block)
  earlier : d.ops <+: c.ops
  same : d = c ∨ ((d.slot block).For c ∧ d.key ∈ d.ops ∧ d.key = c.key)

lemma SlotOf.for {block : Nat} {c : Call D} {j : Nat}
    (slot : SlotOf block tr slots c j d) : (d.slot block).For c := by
  obtain rfl | same := slot.same
  · exact ⟨rfl, rfl, rfl⟩
  · exact same.1

lemma SlotOf.op {block : Nat} {c : Call D} {j : Nat}
    (slot : SlotOf block tr slots c j d) (reached : c.key ∈ c.ops) : d.key ∈ d.ops ∧ d.key = c.key := by
  obtain rfl | same := slot.same
  · exact ⟨reached, rfl⟩
  · exact same.2

/-- **Where a call of the first run finds its slot.** -/
theorem slot_of_call (ran : trace table ops as = some tr)
    (valid : ∀ c, some c ∈ tr.calls → c.key.type ≠ 0) (mem : Memory D) (block time : Nat) {i : Nat}
    {c : Call D} (here : tr.calls[i]? = some (some c)) :
    ∃ j d, (tr.placed mem block time).2[i]? = some (some j) ∧ SlotOf block tr (tr.placed mem block time).1 c j d ∧
      ∀ m, m < j → ∃ d', some d' ∈ tr.calls ∧ d'.ops <+: c.ops ∧
        (tr.placed mem block time).1[m]? = some (d'.slot block) ∧
        (slotRequest mem block (time + i + 1, c)).accepts (d'.slot block) = false := by
  have request : (slotRequests mem block time tr.calls)[i]? =
      some (some (slotRequest mem block (time + i + 1, c))) := by
    rw [getElem?_slotRequests, here]
    rfl
  obtain ⟨before, index, grows, origin⟩ := placeAll_at _ [] request
  have made : ∀ e ∈ before, ∃ d, some d ∈ tr.calls ∧ d.ops <+: c.ops ∧ e = d.slot block := by
    intro e member
    obtain old | ⟨i', r, less, request', rfl⟩ := origin e member
    · cases old
    · rw [getElem?_slotRequests] at request'
      obtain ⟨d, call, eq⟩ := Option.map_eq_some_iff.mp request'
      obtain ⟨d, rfl, rfl⟩ := Option.map_eq_some_iff.mp eq
      exact ⟨d, List.mem_of_getElem? call, ops_of_later ran less call here, rfl⟩
  have start := (prefix_place before _).trans grows
  cases found : before.findIdx? (slotRequest mem block (time + i + 1, c)).accepts with
  | some j =>
    rw [place_hit found] at index grows
    obtain ⟨⟨e, at', accepted⟩, rejected⟩ := findIdx?_some_iff.mp found
    have bound := (List.getElem?_eq_some_iff.mp at').1
    obtain ⟨d, member, earlier, rfl⟩ := made e (List.mem_of_getElem? at')
    refine ⟨j, d, index, ⟨member, ?_, earlier, .inr ?_⟩, fun m less => ?_⟩
    · rw [getElem?_extends start bound, at']
    · exact (accepts_own mem block _ earlier (valid c (List.mem_of_getElem? here))).mp accepted
    · have bound' : m < before.length := by omega
      obtain ⟨d', member', earlier', eq⟩ := made _ (List.getElem_mem bound')
      have there : before[m]? = some (d'.slot block) := eq ▸ List.getElem?_eq_getElem bound'
      exact ⟨d', member', earlier', by rw [getElem?_extends start bound', there],
        rejected m less _ there⟩
  | none =>
    rw [place_miss found] at index grows
    refine ⟨before.length, c, index, ⟨List.mem_of_getElem? here, ?_, List.prefix_refl _, .inl rfl⟩,
      fun m bound => ?_⟩
    · rw [getElem?_extends grows (by simp)]
      simp [slotRequest, Call.slot]
    · obtain ⟨d', member', earlier', eq⟩ := made _ (List.getElem_mem bound)
      have there : before[m]? = some (d'.slot block) := eq ▸ List.getElem?_eq_getElem bound
      refine ⟨d', member', earlier', by rw [getElem?_extends start bound, there], ?_⟩
      have rejected := List.findIdx?_eq_none_iff.mp found _ (List.mem_of_getElem? there)
      simpa using rejected

section FirstRun

variable (ran : trace table ops as = some tr) (valid : ∀ c, some c ∈ tr.calls → c.key.type ≠ 0)
  (mem : Memory D) (block time : Nat) {i i' j j' : Nat} {c c' : Call D}

include ran valid

/-- A call whose operator has a record finds its slot among those of the whole run. -/
lemma finds_slot (here : tr.calls[i]? = some (some c)) (reached : c.key ∈ c.ops)
    (index : (tr.placed mem block time).2[i]? = some (some j)) :
    (tr.placed mem block time).1.findIdx? (slotRequest mem block (time + i + 1, c)).accepts = some j := by
  obtain ⟨j1, d, index1, slot, rejected⟩ := slot_of_call ran valid mem block time here
  obtain rfl : j = j1 := by simpa [index] using index1
  refine findIdx?_some_iff.mpr ⟨⟨_, slot.here, ?_⟩, fun m less e there => ?_⟩
  · exact (accepts_own mem block _ slot.earlier (valid c (List.mem_of_getElem? here))).mpr
      ⟨slot.for, slot.op reached⟩
  · obtain ⟨d', _, _, there', no⟩ := rejected m less
    obtain rfl : d'.slot block = e := by simpa [there] using there'.symm
    exact no

lemma same_index (first : tr.calls[i]? = some (some c)) (second : tr.calls[i']? = some (some c'))
    (order : i < i') (reached : c.key ∈ c.ops) (keys : c.key = c'.key)
    (ids : c.expressionId = c'.expressionId) (steps : key c.steps = key c'.steps)
    (index : (tr.placed mem block time).2[i]? = some (some j))
    (index' : (tr.placed mem block time).2[i']? = some (some j')) : j = j' := by
  have later := ops_of_later ran order first second
  have valid' := valid c' (List.mem_of_getElem? second)
  have same : ∀ slot : Slot, slot.For c ↔ slot.For c' := by
    intro slot
    obtain ⟨hash, length⟩ := Prod.mk.inj steps
    simp only [Slot.For, ids, hash, length]
  obtain ⟨j1, d, index1, slot, rejected⟩ := slot_of_call ran valid mem block time first
  obtain rfl : j = j1 := by simpa [index] using index1
  have found := finds_slot ran valid mem block time second (keys ▸ later.subset reached) index'
  have found' : (tr.placed mem block time).1.findIdx? (slotRequest mem block (time + i' + 1, c')).accepts = some j := by
    refine findIdx?_some_iff.mpr ⟨⟨_, slot.here, ?_⟩, fun m less e there => ?_⟩
    · obtain ⟨record, op⟩ := slot.op reached
      exact (accepts_own mem block _ (slot.earlier.trans later) valid').mpr
        ⟨(same _).mp slot.for, record, op.trans keys⟩
    · obtain ⟨d', _, earlier, there', no⟩ := rejected m less
      obtain rfl : d'.slot block = e := by simpa [there] using there'.symm
      rw [← Bool.not_eq_true, accepts_own mem block _ (earlier.trans later) valid', ← keys,
        ← same, ← accepts_own mem block (time + i + 1) earlier (valid c (List.mem_of_getElem? first)), Bool.not_eq_true]
      exact no
  rw [found] at found'
  exact (Option.some.inj found').symm

/-- Calls with the same index are for the same operator, and agree in hash and
length. -/
lemma same_slot (first : tr.calls[i]? = some (some c)) (second : tr.calls[i']? = some (some c'))
    (reached : c.key ∈ c.ops) (reached' : c'.key ∈ c'.ops) (index : (tr.placed mem block time).2[i]? = some (some j))
    (index' : (tr.placed mem block time).2[i']? = some (some j)) : c.key = c'.key ∧ key c.steps = key c'.steps := by
  obtain ⟨j1, d, index1, slot, _⟩ := slot_of_call ran valid mem block time first
  obtain ⟨j2, d', index2, slot', _⟩ := slot_of_call ran valid mem block time second
  obtain rfl : j = j1 := by simpa [index] using index1
  obtain rfl : j = j2 := by simpa [index'] using index2
  have shared : d.slot block = d'.slot block := by simpa [slot.here] using slot'.here
  obtain ⟨record, op⟩ := slot.op reached
  obtain ⟨record', op'⟩ := slot'.op reached'
  constructor
  · -- the two pointers are the same, and records are never overwritten
    have pointers : d.op block = d'.op block := congrArg Slot.op shared
    obtain ⟨_, absent⟩ | ⟨k, found, at'⟩ := d.op_cases block
    · exact absurd record absent
    obtain ⟨_, absent⟩ | ⟨k', found', at''⟩ := d'.op_cases block
    · exact absurd record' absent
    rw [found, found'] at pointers
    cases pointers
    have end1 := (trace_call ran slot.member).2.1
    have end2 := (trace_call ran slot'.member).2.1
    have read1 := getElem?_extends end1 (List.getElem?_eq_some_iff.mp at').1
    have read2 := getElem?_extends end2 (List.getElem?_eq_some_iff.mp at'').1
    rw [read1, at', at''] at read2
    rw [← op, ← op']
    exact Option.some.inj read2
  · have own := slot.for
    have own' := slot'.for
    rw [shared] at own
    exact Prod.ext (own.2.1.symm.trans own'.2.1) (own.2.2.symm.trans own'.2.2)

end FirstRun

end Slots

/-! ## The runs of a statement -/

section Stable

variable {D : Type} [DecidableEq D]

/-- Different (expression, operator) pairs have different indices. -/
def Distinct (handed : List (Site D)) (indices : List (Option Nat)) : Prop :=
  ∀ (i i' j : Nat) (a a' : Site D) (op op' : Operator D), handed[i]? = some a →
    handed[i']? = some a' → a.op = some op → a'.op = some op' → indices[i]? = some (some j) →
    indices[i']? = some (some j) → a.steps = a'.steps ∧ op = op'

variable [Zero D]

/-- Every run gives the indices, and leaves `num` slots. -/
def Repeats (mem : Memory D) (text : Text) (indices : List (Option Nat)) (num : Nat) :
    State D → List (List (Event D)) → Prop
  | _, [] => True
  | s, events :: rest => ∃ s', execSimpleQuery mem s ⟨text, events⟩ = some (s', indices) ∧
      s'.currentExprList.length = num ∧ Repeats mem text indices num s' rest

/-- The runs of a statement, the first and the others, all give the same indices to
their expressions and different ones to different pairs, and no run adds a slot. -/
def Stable (mem : Memory D) (s : State D) (text : Text) (first : List (Event D))
    (others : List (List (Event D))) : Prop :=
  ∃ s' indices, execSimpleQuery mem s ⟨text, first⟩ = some (s', indices) ∧ Distinct (sites [] (acts first)) indices ∧
    Repeats mem text indices s'.currentExprList.length s' others

/-- At the times of a run, the pointer of each call's slot reads as its operator, and
that of no earlier slot for the expression does. -/
def ReadsBack (mem : Memory D) (time : Nat) (slots : List Slot) (calls : List (Option (Call D)))
    (indices : List (Option Nat)) : Prop :=
  ∀ i c j slot, calls[i]? = some (some c) → indices[i]? = some (some j) → slots[j]? = some slot →
    (∃ p, slot.op = some p ∧ mem (time + i + 1) p = c.key) ∧
    ∀ m other, m < j → slots[m]? = some other → other.For c → ∀ p, other.op = some p → mem (time + i + 1) p ≠ c.key

/-- The first run stays inside the arrays. The operator of each of its calls has a
record, no call has the hash 0, and no two calls in one operator have different steps
with the same hash and length. And in each of the `n` other runs the freed records
read back. -/
def Repeatable (mem : Memory D) (s : State D) (text : Text) (first : List (Event D)) (n : Nat) :
    Prop :=
  ∃ s' indices tr, execSimpleQuery mem s ⟨text, first⟩ = some (s', indices) ∧ trace s.table [] (acts first) = some tr ∧
    (∀ c, some c ∈ tr.calls → c.key ∈ c.ops ∧ calculateHash c.steps ≠ 0) ∧
    (∀ c c', some c ∈ tr.calls → some c' ∈ tr.calls → c.key = c'.key →
      key c.steps = key c'.steps → c.steps = c'.steps) ∧
    ∀ k, k < n → ReadsBack mem (s.tick + (k + 1) * tr.calls.length) s'.currentExprList tr.calls indices

/-- The state after the first run and `k` others that found their slots. -/
structure Loop (mem : Memory D) (s : State D) (text : Text) (tr : Trace D) (k : Nat)
    (s' : State D) : Prop where
  refines : ∃ log, Refines log s'.table
  grows : Grows tr.table s'.table
  statement : s'.currentStatement = some text
  block : s'.block = s.block + 1 + k
  tick : s'.tick = s.tick + (k + 1) * tr.calls.length
  slots : s'.currentExprList = (tr.placed mem (s.block + 1) s.tick).1

/-- What the first run of a statement leaves for the others. -/
structure Issued (log : List (List Int)) (mem : Memory D) (s : State D) (text : Text) (first : List (Event D))
    (tr : Trace D) (indices : List (Option Nat)) : Prop where
  refines : Refines log s.table
  expressions : containExpr text = true
  traced : trace s.table [] (acts first) = some tr
  inside : (((shape s).begin text).answer mem tr).1.Inside
  few : (tr.placed mem (s.block + 1) s.tick).1.length ≤ exprMaxNum
  index : indices = (tr.placed mem (s.block + 1) s.tick).2

section Runs

variable {log : List (List Int)} {mem : Memory D} {s s1 : State D} {text : Text} {first : List (Event D)}
  {indices : List (Option Nat)} {tr : Trace D} {k : Nat} {events : List (Event D)} {others : List (List (Event D))}

lemma first_run (refines : Refines log s.table) (expressions : containExpr text = true)
    (new : isRepetition s.currentStatement text = false)
    (ran : execSimpleQuery mem s ⟨text, first⟩ = some (s1, indices)) :
    ∃ tr, Issued log mem s text first tr indices ∧ Loop mem s text tr 0 s1 := by
  have empty : ((shape s).begin text).slots = [] := by simp [Shape.begin, shape, new]
  have few : ((shape s).begin text).slots.length ≤ exprMaxNum := by simp [empty]
  obtain ⟨tr, traced, answered, inside⟩ := execSimpleQuery_some (q := ⟨text, first⟩) expressions few ran
  have after := congrArg Prod.fst answered
  obtain ⟨refines', grows⟩ := trace_grows refines traced
  have table : s1.table = tr.table := congrArg Shape.table after.symm
  have slots : s1.currentExprList = (placeAll ((shape s).begin text).slots
      (slotRequests mem (s.block + 1) s.tick tr.calls)).1 := congrArg Shape.slots after.symm
  have index : indices = (placeAll ((shape s).begin text).slots
      (slotRequests mem (s.block + 1) s.tick tr.calls)).2 := congrArg Prod.snd answered.symm
  rw [empty] at slots index
  refine ⟨tr, ⟨refines, expressions, traced, by rw [after]; exact inside, slots ▸ inside.slots, index⟩, ?_⟩
  refine ⟨by rw [table]; exact refines', by rw [table]; exact .refl _, ?_, ?_, ?_, slots⟩
  · have statement : s1.currentStatement = ((shape s).begin text).currentStatement :=
      congrArg Shape.currentStatement after.symm
    rw [statement]
    simp [Shape.begin, shape, new]
  · exact congrArg Shape.block after.symm
  · have tick : s1.tick = s.tick + tr.calls.length := congrArg Shape.tick after.symm
    rw [tick]
    omega

omit [Zero D] in
lemma later_answer (loop : Loop mem s text tr k s1) (tr1 : Trace D) :
    (((shape s1).begin text).answer mem tr1).1.slots = (placeAll s1.currentExprList
          (slotRequests mem (s.block + 1 + (k + 1)) (s.tick + (k + 1) * tr.calls.length) tr1.calls)).1 ∧
      (((shape s1).begin text).answer mem tr1).2 = (placeAll s1.currentExprList
          (slotRequests mem (s.block + 1 + (k + 1)) (s.tick + (k + 1) * tr.calls.length) tr1.calls)).2 := by
  have repetition : isRepetition s1.currentStatement text = true := by
    rw [loop.statement]
    exact sameIgnoringCase_refl text
  have slots : ((shape s1).begin text).slots = s1.currentExprList := by
    simp [Shape.begin, shape, repetition]
  have block : ((shape s1).begin text).block = s.block + 1 + (k + 1) := by
    show s1.block + 1 = _
    rw [loop.block]
    omega
  have tick : ((shape s1).begin text).tick = s.tick + (k + 1) * tr.calls.length := loop.tick
  simp only [Shape.answer, slots, block, tick]
  exact ⟨rfl, rfl⟩

/-- **Another run that gives the same indices finds the slots of the first.** -/
theorem later_run {s2 : State D} (issued : Issued log mem s text first tr indices)
    (loop : Loop mem s text tr k s1) (same : acts events = acts first)
    (ran : execSimpleQuery mem s1 ⟨text, events⟩ = some (s2, indices)) :
    ∃ tr1, trace s1.table [] (acts first) = some tr1 ∧ List.Forall₂ (Answers s1.currentExprList)
        (slotRequests mem (s.block + 1 + (k + 1)) (s.tick + (k + 1) * tr.calls.length) tr1.calls)
        indices ∧
      Loop mem s text tr (k + 1) s2 := by
  have few : s1.currentExprList.length ≤ exprMaxNum := loop.slots ▸ issued.few
  obtain ⟨tr1, traced1, answered, _⟩ := execSimpleQuery_some (q := ⟨text, events⟩) issued.expressions
    (Shape.length_begin (s := shape s1) text few) ran
  have after := congrArg Prod.fst answered
  obtain ⟨slots, index1⟩ := later_answer loop tr1
  rw [same] at traced1
  have answers : List.Forall₂ (Answers s1.currentExprList)
      (slotRequests mem (s.block + 1 + (k + 1)) (s.tick + (k + 1) * tr.calls.length) tr1.calls)
      indices := by
    refine placeAll_answers_iff.mpr ⟨index1.symm.trans (congrArg Prod.snd answered), ?_⟩
    intro j member
    obtain ⟨i, here⟩ := List.mem_iff_getElem?.mp member
    rw [loop.slots]
    rw [issued.index] at here
    exact (request_of_index here).2
  refine ⟨tr1, traced1, answers, ?_⟩
  obtain ⟨log', refines⟩ := loop.refines
  obtain ⟨refines2, grows⟩ := trace_grows refines traced1
  have table : s2.table = tr1.table := congrArg Shape.table after.symm
  refine ⟨by rw [table]; exact refines2, by rw [table]; exact loop.grows.trans grows, ?_, ?_, ?_, ?_⟩
  · have statement : s2.currentStatement = ((shape s1).begin text).currentStatement :=
      congrArg Shape.currentStatement after.symm
    have repetition : isRepetition s1.currentStatement text = true := by
      rw [loop.statement]
      exact sameIgnoringCase_refl text
    rw [statement]
    show (if isRepetition s1.currentStatement text then s1.currentStatement else some text) = _
    rw [if_pos repetition, loop.statement]
  · have block : s2.block = s1.block + 1 := congrArg Shape.block after.symm
    rw [block, loop.block]
    omega
  · have tick : s2.tick = s1.tick + tr1.calls.length := congrArg Shape.tick after.symm
    have lengths : tr1.calls.length = tr.calls.length :=
      (length_sites traced1).trans (length_sites issued.traced).symm
    rw [tick, loop.tick, lengths, Nat.add_assoc, ← Nat.succ_mul]
  · have slots2 : s2.currentExprList = (((shape s1).begin text).answer mem tr1).1.slots :=
      congrArg Shape.slots after.symm
    rw [slots2, slots, placeAll_of_answers answers]
    exact loop.slots

/-- **Another run gives the same indices when its calls find the slots of the first.** -/
theorem run_again (issued : Issued log mem s text first tr indices) (loop : Loop mem s text tr k s1)
    (marked : ∀ c, some c ∈ tr.calls → calculateHash c.steps ≠ 0) (same : acts events = acts first)
    (answers : List.Forall₂ (Answers s1.currentExprList)
      (slotRequests mem (s.block + 1 + (k + 1)) (s.tick + (k + 1) * tr.calls.length) tr.calls)
      indices) :
    ∃ s2, execSimpleQuery mem s1 ⟨text, events⟩ = some (s2, indices) ∧
      s2.currentExprList = s1.currentExprList ∧ Loop mem s text tr (k + 1) s2 := by
  obtain ⟨log', refines'⟩ := loop.refines
  obtain ⟨tr1, traced1, calls, ops⟩ := trace_again issued.refines issued.traced marked refines' loop.grows
  obtain ⟨slots, index1⟩ := later_answer loop tr1
  rw [calls, placeAll_of_answers answers] at slots index1
  have few : s1.currentExprList.length ≤ exprMaxNum := loop.slots ▸ issued.few
  obtain ⟨nodes, infos, short, _⟩ := (inside_answer_iff mem (shape s) text issued.traced).mp issued.inside
  have kept : (((shape s1).begin text).answer mem tr1).1.Inside := by
    refine (inside_answer_iff mem (shape s1) text traced1).mpr ⟨ops ▸ nodes, ?_, ?_, ?_⟩
    · rw [Trace.infosNeeded, calls]
      exact infos
    · rw [calls]
      exact short
    · rw [slots]
      exact few
  obtain ⟨s2, indices2, ran, answered⟩ := execSimpleQuery_of_trace (q := ⟨text, events⟩) issued.expressions
    (Shape.length_begin (s := shape s1) text few) (same ▸ traced1) kept
  obtain rfl : indices = indices2 := index1.symm.trans (congrArg Prod.snd answered)
  have after := congrArg Prod.fst answered
  have slots2 : s2.currentExprList = (((shape s1).begin text).answer mem tr1).1.slots :=
    congrArg Shape.slots after.symm
  obtain ⟨_, _, _, next⟩ := later_run issued loop same ran
  exact ⟨s2, ran, slots2.trans slots, next⟩

omit [Zero D] in
/-- **The calls of another run find the slots of the first when the freed records read
back.** -/
theorem answers_iff_readsBack {table : Table} {ops : List (Operator D)} {as : List (Act D)}
    (traced : trace table ops as = some tr) (valid : ∀ c, some c ∈ tr.calls → c.key.type ≠ 0)
    (block start time : Nat) {block' : Nat} (freed : block + 1 < block') :
    List.Forall₂ (Answers (tr.placed mem (block + 1) start).1) (slotRequests mem block' time tr.calls)
        (tr.placed mem (block + 1) start).2 ↔
      ReadsBack mem time (tr.placed mem (block + 1) start).1 tr.calls (tr.placed mem (block + 1) start).2 := by
  have none : Allocated block [] := fun slot member => by cases member
  have allocated : Allocated (block + 1) (tr.placed mem (block + 1) start).1 := none.answer tr.calls
  have away : ∀ {m : Nat} {slot : Slot},
      (tr.placed mem (block + 1) start).1[m]? = some slot → ∀ p, slot.op = some p → p.block ≠ block' := by
    intro m slot here p pointer
    have := allocated slot (List.mem_of_getElem? here) p pointer
    omega
  rw [forall₂_answers]
  constructor
  · rintro ⟨_, found, _⟩ i c j slot call index here
    have valid' := valid c (List.mem_of_getElem? call)
    obtain ⟨j', index', hit⟩ := found i _ (by rw [getElem?_slotRequests, call]; rfl)
    obtain rfl : j = j' := by simpa [index] using index'
    obtain ⟨⟨e, at', accepted⟩, rejected⟩ := findIdx?_some_iff.mp hit
    obtain rfl : slot = e := by simpa [here] using at'
    refine ⟨((accepts_freed mem _ (away here) valid').mp accepted).2, ?_⟩
    intro m other less there own p pointer reads
    have accepted' := (accepts_freed mem _ (away there) valid').mpr ⟨own, p, pointer, reads⟩
    rw [rejected m less other there] at accepted'
    cases accepted'
  · intro reads
    refine ⟨?_, fun i r asked => ?_, fun i skipped => ?_⟩
    · rw [length_indices, length_slotRequests, length_slotRequests]
    · rw [getElem?_slotRequests] at asked
      obtain ⟨c', call, eq⟩ := Option.map_eq_some_iff.mp asked
      obtain ⟨c, rfl, rfl⟩ := Option.map_eq_some_iff.mp eq
      have valid' := valid c (List.mem_of_getElem? call)
      obtain ⟨j, d, index, slot, _⟩ := slot_of_call traced valid mem (block + 1) start call
      obtain ⟨⟨p, pointer, own⟩, others⟩ := reads i c j _ call index slot.here
      refine ⟨j, index, findIdx?_some_iff.mpr ⟨⟨_, slot.here, ?_⟩, fun m less e there => ?_⟩⟩
      · exact (accepts_freed mem _ (away slot.here) valid').mpr ⟨slot.for, p, pointer, own⟩
      · rw [← Bool.not_eq_true, accepts_freed mem _ (away there) valid']
        rintro ⟨own', p', pointer', reads'⟩
        exact others m e less there own' p' pointer' reads'
    · have bound : i < (tr.placed mem (block + 1) start).2.length := by
        have := (List.getElem?_eq_some_iff.mp skipped).1
        rw [length_slotRequests] at this
        rw [length_indices, length_slotRequests]
        exact this
      rw [List.getElem?_eq_getElem bound]
      cases index : (tr.placed mem (block + 1) start).2[i] with
      | none => rfl
      | some j =>
        obtain ⟨⟨r, asked⟩, _⟩ := request_of_index (index ▸ List.getElem?_eq_getElem bound)
        rw [getElem?_slotRequests] at asked skipped
        obtain ⟨c, call, eq⟩ := Option.map_eq_some_iff.mp asked
        rw [call] at skipped
        cases c with
        | none => cases eq
        | some c => cases skipped

omit [Zero D] in
/-- **A call that keeps its index in the second run** has a record for its operator, and
a hash other than 0. -/
theorem reached_and_marked {log1 : List (List Int)} {table1 : Table} {tr1 : Trace D}
    (issued : Issued log mem s text first tr indices) (refines1 : Refines log1 table1) (grows : Grows tr.table table1)
    (traced1 : trace table1 [] (acts first) = some tr1) (time : Nat) {block' : Nat} (freed : s.block + 1 < block')
    (answers : List.Forall₂ (Answers (tr.placed mem (s.block + 1) s.tick).1)
      (slotRequests mem block' time tr1.calls) indices)
    (c : Call D) (member : some c ∈ tr.calls) : c.key ∈ c.ops ∧ calculateHash c.steps ≠ 0 := by
  obtain ⟨i, call⟩ := List.mem_iff_getElem?.mp member
  have traced := issued.traced
  obtain ⟨j, d, index, slot, _⟩ :=
    slot_of_call traced (key_type_ne traced) mem (s.block + 1) s.tick call
  obtain ⟨length, found, skipped⟩ := forall₂_answers.mp (issued.index ▸ answers)
  -- the second run has a call there, too
  obtain ⟨c1, call1⟩ : ∃ c1, tr1.calls[i]? = some (some c1) := by
    have bound : i < tr1.calls.length := by
      rw [length_sites traced1, ← length_sites traced]
      exact (List.getElem?_eq_some_iff.mp call).1
    cases here : tr1.calls[i] with
    | some c1 => exact ⟨c1, here ▸ List.getElem?_eq_getElem bound⟩
    | none =>
      have call1 : tr1.calls[i]? = some none := here ▸ List.getElem?_eq_getElem bound
      have none := skipped i (by rw [getElem?_slotRequests, call1]; rfl)
      rw [index] at none
      cases none
  have member1 := List.mem_of_getElem? call1
  obtain ⟨_, steps, ops⟩ : some c.key = some c1.key ∧ c.steps = c1.steps ∧ c.ops = c1.ops := by
    have site := site_of_call traced call
    rw [site_of_call traced1 call1] at site
    simpa [eq_comm] using site
  obtain ⟨j', index', hit⟩ := found i _ (by rw [getElem?_slotRequests, call1]; rfl)
  obtain rfl : j = j' := by simpa [index] using index'
  obtain ⟨⟨e, here, accepted⟩, _⟩ := findIdx?_some_iff.mp hit
  obtain rfl : d.slot (s.block + 1) = e := by simpa [slot.here] using here
  have away : ∀ p, (d.slot (s.block + 1)).op = some p → p.block ≠ block' := by
    intro p pointer
    obtain ⟨null, _⟩ | ⟨k, found, _⟩ := d.op_cases (s.block + 1)
    · cases null.symm.trans pointer
    · cases found.symm.trans pointer
      exact freed.ne
  obtain ⟨own, p, pointer, _⟩ :=
    (accepts_freed mem _ away (key_type_ne traced1 c1 member1)).mp accepted
  constructor
  · obtain ⟨null, _⟩ | ⟨k, _, at'⟩ := d.op_cases (s.block + 1)
    · cases null.symm.trans pointer
    · have record : d.key ∈ d.ops := List.mem_of_getElem? at'
      obtain rfl | ⟨_, _, op⟩ := slot.same
      · exact record
      · exact op ▸ slot.earlier.subset record
  · intro zero
    -- the second run has given it a new number
    have old := (trace_numbered issued.refines traced member).old
    have new := (trace_numbered refines1 traced1 member1).fresh (steps ▸ zero)
    have ids : c.expressionId = c1.expressionId := slot.for.1.symm.trans own.1
    have := grows.count
    omega

lemma conditions_of_repeats (issued : Issued log mem s text first tr indices) (loop : Loop mem s text tr 0 s1)
    {num : Nat} (again : others ≠ []) (same : ∀ events ∈ others, acts events = acts first)
    (repeats : Repeats mem text indices num s1 others) (c : Call D) (member : some c ∈ tr.calls) :
    c.key ∈ c.ops ∧ calculateHash c.steps ≠ 0 := by
  obtain ⟨events, rest, rfl⟩ := List.exists_cons_of_ne_nil again
  obtain ⟨s2, ran2, _, _⟩ := repeats
  obtain ⟨tr1, traced1, answers, _⟩ := later_run issued loop (same events List.mem_cons_self) ran2
  obtain ⟨_, refines'⟩ := loop.refines
  rw [loop.slots] at answers
  exact reached_and_marked issued refines' loop.grows traced1 _ (by omega) answers c member

lemma reads_of_repeats (issued : Issued log mem s text first tr indices)
    (marked : ∀ c, some c ∈ tr.calls → calculateHash c.steps ≠ 0) {num : Nat}
    (same : ∀ events ∈ others, acts events = acts first) (loop : Loop mem s text tr k s1)
    (repeats : Repeats mem text indices num s1 others) (m : Nat) (less : m < others.length) :
    ReadsBack mem (s.tick + (k + m + 1) * tr.calls.length) (tr.placed mem (s.block + 1) s.tick).1 tr.calls
      indices := by
  induction others generalizing k s1 m with
  | nil => simp at less
  | cons events rest ih =>
    obtain ⟨s2, ran, _, later⟩ := repeats
    obtain ⟨tr1, traced1, answers, next⟩ := later_run issued loop (same events List.mem_cons_self) ran
    cases m with
    | zero =>
      obtain ⟨log', refines'⟩ := loop.refines
      obtain ⟨tr2, traced2, calls, _⟩ := trace_again issued.refines issued.traced marked refines' loop.grows
      obtain rfl : tr1 = tr2 := by simpa [traced1] using traced2
      rw [calls, loop.slots, issued.index] at answers
      rw [issued.index]
      exact (answers_iff_readsBack issued.traced (key_type_ne issued.traced) s.block s.tick _ (by omega)).mp answers
    | succ m =>
      have shift : k + (m + 1) + 1 = k + 1 + m + 1 := by omega
      rw [shift]
      exact ih (fun events member => same events (List.mem_cons_of_mem _ member)) next later m (by simpa using less)

lemma repeats_of_reads (issued : Issued log mem s text first tr indices)
    (marked : ∀ c, some c ∈ tr.calls → calculateHash c.steps ≠ 0)
    (same : ∀ events ∈ others, acts events = acts first) (loop : Loop mem s text tr k s1)
    (reads : ∀ m, m < others.length → ReadsBack mem (s.tick + (k + m + 1) * tr.calls.length)
      (tr.placed mem (s.block + 1) s.tick).1 tr.calls indices) :
    Repeats mem text indices s1.currentExprList.length s1 others := by
  induction others generalizing k s1 with
  | nil => trivial
  | cons events rest ih =>
    have now := reads 0 (by simp)
    rw [issued.index] at now
    have answers := (answers_iff_readsBack issued.traced (key_type_ne issued.traced) s.block s.tick _
      (show s.block + 1 < s.block + 1 + (k + 1) by omega)).mpr now
    rw [← loop.slots, ← issued.index] at answers
    obtain ⟨s2, ran, slots, next⟩ := run_again issued loop marked (same events List.mem_cons_self) answers
    refine ⟨s2, ran, congrArg List.length slots, ?_⟩
    rw [← slots]
    refine ih (fun events member => same events (List.mem_cons_of_mem _ member)) next fun m less => ?_
    have later := reads (m + 1) (by simpa using less)
    have shift : k + (m + 1) + 1 = k + 1 + m + 1 := by omega
    rw [shift] at later
    exact later

omit [DecidableEq D] [Zero D] in
lemma same_id (refines : Refines log s.table) (traced : trace s.table [] (acts first) = some tr)
    {c c' : Call D} (member : some c ∈ tr.calls) (member' : some c' ∈ tr.calls)
    (nonzero : calculateHash c.steps ≠ 0) (steps : key c.steps = key c'.steps) : c.expressionId = c'.expressionId := by
  obtain ⟨⟨_, refines'⟩, _⟩ := trace_grows refines traced
  have nonzero' : calculateHash c'.steps ≠ 0 := fun zero =>
    nonzero ((congrArg Prod.fst steps).trans zero)
  obtain ⟨i, inside, stored, number⟩ := (trace_numbered refines traced member).entry nonzero
  obtain ⟨i', inside', stored', number'⟩ := (trace_numbered refines traced member').entry nonzero'
  obtain rfl := refines'.reached.distinct i i' _ inside inside' stored (steps ▸ stored')
  exact number.symm.trans number'

omit [Zero D] in
lemma call_of_index (traced : trace s.table [] (acts first) = some tr) {i j : Nat}
    (here : (tr.placed mem (s.block + 1) s.tick).2[i]? = some (some j)) :
    ∃ c, tr.calls[i]? = some (some c) ∧ (sites [] (acts first))[i]? = some ⟨some c.key, c.steps, c.ops⟩ := by
  obtain ⟨⟨r, asked⟩, _⟩ := request_of_index here
  rw [getElem?_slotRequests] at asked
  obtain ⟨_, call, eq⟩ := Option.map_eq_some_iff.mp asked
  obtain ⟨c, rfl, _⟩ := Option.map_eq_some_iff.mp eq
  exact ⟨c, call, site_of_call traced call⟩

omit [Zero D] in
/-- **When the first run tells the pairs apart.** -/
theorem keys_distinct_iff (refines : Refines log s.table) (traced : trace s.table [] (acts first) = some tr)
    (conditions : ∀ c, some c ∈ tr.calls → c.key ∈ c.ops ∧ calculateHash c.steps ≠ 0) :
    Distinct (sites [] (acts first)) (tr.placed mem (s.block + 1) s.tick).2 ↔
      ∀ c c', some c ∈ tr.calls → some c' ∈ tr.calls → c.key = c'.key →
        key c.steps = key c'.steps → c.steps = c'.steps := by
  have valid := key_type_ne traced
  constructor
  · intro distinct c c' member member' op steps
    have id := same_id refines traced member member' (conditions c member).2 steps
    obtain ⟨i, call⟩ := List.mem_iff_getElem?.mp member
    obtain ⟨i', call'⟩ := List.mem_iff_getElem?.mp member'
    obtain ⟨j, _, index, _⟩ := slot_of_call traced valid mem (s.block + 1) s.tick call
    obtain ⟨j', _, index', _⟩ := slot_of_call traced valid mem (s.block + 1) s.tick call'
    have eq : j = j' := by
      obtain less | rfl | more := Nat.lt_trichotomy i i'
      · exact same_index traced valid mem (s.block + 1) s.tick call call' less
          (conditions c member).1 op id steps index index'
      · simpa [index] using index'
      · exact (same_index traced valid mem (s.block + 1) s.tick call' call more
          (conditions c' member').1 op.symm id.symm steps.symm index' index).symm
    exact (distinct i i' j _ _ _ _ (site_of_call traced call) (site_of_call traced call') rfl rfl index (eq ▸ index')).1
  · intro collisions i i' j a a' op op' site site' hasOp hasOp' index index'
    obtain ⟨c, call, known⟩ := call_of_index traced index
    obtain ⟨c', call', known'⟩ := call_of_index traced index'
    rw [site] at known
    rw [site'] at known'
    cases known
    cases known'
    cases hasOp
    cases hasOp'
    have member := List.mem_of_getElem? call
    have member' := List.mem_of_getElem? call'
    obtain ⟨ops, steps⟩ := same_slot traced valid mem (s.block + 1) s.tick call call'
      (conditions c member).1 (conditions c' member').1 index index'
    exact ⟨collisions c c' member member' ops steps, ops⟩

omit [Zero D] in
/-- **An allocator that hands out the freed block again**: at the time of a call, a
pointer to a record of the first run reads the record that is there now. Then the
slots of calls whose operators have records read back. -/
theorem readsBack_of_reuse (traced : trace s.table [] (acts first) = some tr)
    (reached : ∀ c, some c ∈ tr.calls → c.key ∈ c.ops) (time : Nat)
    (reuse : ∀ (i m : Nat) (c : Call D) (op : Operator D), tr.calls[i]? = some (some c) →
      c.ops[m]? = some op → mem (time + i + 1) ⟨s.block + 1, m⟩ = op) :
    ReadsBack mem time (tr.placed mem (s.block + 1) s.tick).1 tr.calls (tr.placed mem (s.block + 1) s.tick).2 := by
  intro i c j slot call index here
  have valid := key_type_ne traced
  have reads : ∀ {d : Call D}, d.ops <+: c.ops → ∀ p, d.op (s.block + 1) = some p →
      d.key ∈ d.ops ∧ mem (time + i + 1) p = d.key := by
    intro d earlier p pointer
    obtain ⟨null, _⟩ | ⟨m, found, at'⟩ := d.op_cases (s.block + 1)
    · cases null.symm.trans pointer
    · cases found.symm.trans pointer
      refine ⟨List.mem_of_getElem? at', reuse i m c d.key call ?_⟩
      rw [getElem?_extends earlier (List.getElem?_eq_some_iff.mp at').1, at']
  obtain ⟨j', d, index', slotOf, rejected⟩ :=
    slot_of_call traced valid mem (s.block + 1) s.tick call
  obtain rfl : j = j' := by simpa [index] using index'
  obtain rfl : slot = d.slot (s.block + 1) := by simpa [here] using slotOf.here
  obtain ⟨record, op⟩ := slotOf.op (reached c (List.mem_of_getElem? call))
  refine ⟨?_, fun m other less there own p pointer same => ?_⟩
  · obtain ⟨_, absent⟩ | ⟨m, found, _⟩ := d.op_cases (s.block + 1)
    · exact absurd record absent
    · exact ⟨_, found, (reads slotOf.earlier _ found).2.trans op⟩
  · obtain ⟨d', _, earlier, there', no⟩ := rejected m less
    obtain rfl : other = d'.slot (s.block + 1) := by simpa [there] using there'
    obtain ⟨record', read'⟩ := reads earlier p pointer
    have accepted := (accepts_own mem (s.block + 1) (s.tick + i + 1) earlier
      (valid c (List.mem_of_getElem? call))).mpr ⟨own, record', read'.symm.trans same⟩
    rw [no] at accepted
    cases accepted

end Runs

/-- **A statement keeps the indices of its expressions over its runs exactly when it is
repeatable.** -/
theorem stable_iff {log : List (List Int)} (mem : Memory D) (s : State D) (text : Text)
    (first : List (Event D)) (others : List (List (Event D))) (refines : Refines log s.table)
    (expressions : containExpr text = true) (new : isRepetition s.currentStatement text = false)
    (again : others ≠ []) (same : ∀ events ∈ others, acts events = acts first) :
    Stable mem s text first others ↔ Repeatable mem s text first others.length := by
  constructor
  · rintro ⟨s', indices, ran, distinct, repeats⟩
    obtain ⟨tr, issued, loop⟩ := first_run refines expressions new ran
    have conditions := conditions_of_repeats issued loop again same repeats
    refine ⟨s', indices, tr, ran, issued.traced, conditions, ?_, fun k less => ?_⟩
    · exact (keys_distinct_iff refines issued.traced conditions).mp (issued.index ▸ distinct)
    · have reads := reads_of_repeats issued (fun c member => (conditions c member).2) same loop repeats k less
      rw [loop.slots]
      rw [Nat.zero_add] at reads
      exact reads
  · rintro ⟨s', indices, tr, ran, traced, conditions, collisions, reads⟩
    obtain ⟨tr', issued, loop⟩ := first_run refines expressions new ran
    obtain rfl : tr = tr' := by simpa [traced] using issued.traced
    refine ⟨s', indices, ran, ?_, ?_⟩
    · rw [issued.index]
      exact (keys_distinct_iff refines traced conditions).mpr collisions
    · refine repeats_of_reads issued (fun c member => (conditions c member).2) same loop fun m less => ?_
      rw [Nat.zero_add, ← loop.slots]
      exact reads m less

end Stable

/-! ## Two statements -/

def tableScan : PlanNode Nat := ⟨1, .seqScan, 0, 5, 100⟩

def scanRun : List (Event Nat) :=
  [.planned ⟨.node tableScan .null .null [], []⟩, .handed (some tableScan) [3, 6, 0]]

/-- A statement over one table keeps its index when the freed record is handed out
again. -/
theorem scan_stable : Stable (fun _ _ => tableScan.key) (start (initial fun _ _ => 0))
    "SELECT 1".toList scanRun [scanRun, scanRun] := by
  have expressions : containExpr "SELECT 1".toList = true := by decide
  refine (stable_iff _ _ _ _ _ (refines_initial _) expressions rfl (by simp) (by simp)).mpr ?_
  have isSome : (execSimpleQuery (fun _ _ => tableScan.key) (start (initial fun _ _ => 0))
      ⟨"SELECT 1".toList, scanRun⟩).isSome = true := by decide +kernel
  obtain ⟨⟨s', indices⟩, ran⟩ := Option.isSome_iff_exists.mp isSome
  obtain ⟨tr, issued, loop⟩ := first_run (refines_initial _) expressions rfl ran
  have traced := issued.traced
  have calls : tr.calls = [some ⟨1, [3, 6, 0], tableScan.key, [tableScan.key]⟩] := by
    have eq : (trace (initial fun _ _ => 0) [] (acts scanRun)).map Trace.calls =
        some [some ⟨1, [3, 6, 0], tableScan.key, [tableScan.key]⟩] := rfl
    exact Option.some.inj ((congrArg (Option.map Trace.calls) traced).symm.trans eq)
  have only : ∀ c, some c ∈ tr.calls → c = ⟨1, [3, 6, 0], tableScan.key, [tableScan.key]⟩ := by
    intro c member
    simpa [calls] using member
  refine ⟨s', indices, tr, ran, traced, fun c member => ?_, fun c c' member member' _ _ => ?_,
    fun k _ => ?_⟩
  · rw [only c member]
    exact ⟨List.mem_cons_self, by decide⟩
  · rw [only c member, only c' member']
  · rw [loop.slots, issued.index]
    refine readsBack_of_reuse traced (fun c member => by simp [only c member]) _ ?_
    intro i m c op call here
    rw [only c (List.mem_of_getElem? call)] at here
    exact (List.mem_singleton.mp (List.mem_of_getElem? here)).symm

/-- An Append over the scan: `addPlanTree` does not walk to the children of an Append. -/
def appendRun : List (Event Nat) :=
  [.planned ⟨.node ⟨0, .append, 0, 9, 0⟩ .null .null [.node tableScan .null .null []], []⟩,
    .handed (some tableScan) [3, 6, 0]]

/-- The scan below an Append has no record, and its expression gets a new slot in the
second run, whatever freed memory reads. -/
lemma unstable_below_append (mem : Memory Nat) : ¬ Stable mem (start (initial fun _ _ => 0))
    "SELECT 1".toList appendRun [appendRun] := by
  rintro ⟨s', indices, ran, _, repeats⟩
  have expressions : containExpr "SELECT 1".toList = true := by decide
  obtain ⟨tr, issued, loop⟩ := first_run (refines_initial _) expressions rfl ran
  have calls : tr.calls = [some ⟨1, [3, 6, 0], tableScan.key, [⟨0, PlanTag.append.code, 0, 9⟩]⟩] := by
    have eq : (trace (initial fun _ _ => 0) [] (acts appendRun)).map Trace.calls =
        some [some ⟨1, [3, 6, 0], tableScan.key, [⟨0, PlanTag.append.code, 0, 9⟩]⟩] := rfl
    exact Option.some.inj ((congrArg (Option.map Trace.calls) issued.traced).symm.trans eq)
  obtain ⟨reached, _⟩ := conditions_of_repeats issued loop (by simp) (by simp) repeats _ (calls ▸ List.mem_cons_self)
  exact absurd reached (by decide)

/-- Not even a freed record that reads as the scan keeps its index: there is no pointer
to it in the slot. -/
theorem append_unstable : ¬ Stable (fun _ _ => tableScan.key) (start (initial fun _ _ => 0))
    "SELECT 1".toList appendRun [appendRun] :=
  unstable_below_append fun _ _ => tableScan.key

end Hex.Kernel.Session
