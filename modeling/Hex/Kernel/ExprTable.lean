/-
# Kernel.ExprTable — the table of expressions a backend has seen

`exprTypes` (globals.c) numbers the expressions of a backend. An expression is
the sequence of its step opcodes; it is stored by open addressing under a hash
of that sequence, and the hash 0 marks an empty entry. Two sequences are taken for
the same expression when they agree in hash and length (`key`).

The C index `hash % 256` takes the sign of the hash, so that a negative hash
reads in front of the table; and storing more than `EXPR_SIZE` steps writes
behind the entry. Both are `none` here; otherwise a function returns what the source
does, the index of an entry or NULL.

`Refines log t` ties the table to what it is for: `log` lists the sequences in
the order in which they got their numbers.
-/
import Hex.Theory.ProbeTable
import Mathlib.Data.Finset.Card
import Mathlib.Data.Fintype.Card

namespace Hex.Kernel.ExprTable

open Theory.ProbeTable

variable {steps : List Int} {t : Table}

def exprListSize : Nat := 256

def exprSize : Nat := 64

/-- One entry of `exprTypes`. -/
structure ExprSteps where
  eIndex : Nat
  expressionId : Nat
  hash : Int
  stepLens : Nat
  steps : Nat → Int

def ExprSteps.stepList (e : ExprSteps) : List Int := (List.range e.stepLens).map e.steps

structure Table where
  exprTypes : Nat → ExprSteps
  exprNum : Nat
  updateExprList : Bool

/-- `initializeExprStepsList`; the step arrays keep what `malloc` returned. -/
def initializeExprStepsList (garbage : Nat → Nat → Int) : Nat → ExprSteps := fun i =>
  { eIndex := i, expressionId := 0, hash := 0, stepLens := 0, steps := garbage i }

def initial (garbage : Nat → Nat → Int) : Table :=
  { exprTypes := initializeExprStepsList garbage, exprNum := 0, updateExprList := false }

/-- `calculate_hash`, in the arithmetic of a `long long` that wraps around. -/
def calculateHash (steps : List Int) : Int :=
  steps.foldl (fun hash step => (hash * 3 + step).bmod (2 ^ 64)) 17

/-- `(int)(eHash % EXPR_LIST_SIZE)`: the remainder has the sign of the hash. -/
def homeIndex (eHash : Int) : Int := eHash.tmod exprListSize

def homeIndex? (eHash : Int) : Option Nat :=
  if 0 ≤ homeIndex eHash then some (homeIndex eHash).toNat else none

/-- Where the loop over the entries stops. -/
inductive Stop where
  | found (i : Nat)
  | left (i : Nat)
  deriving DecidableEq, Repr

/-- The loop of `find_expression` and `add_expression`, for at most `n` rounds. -/
def scan (exprTypes : Nat → ExprSteps) (eHash : Int) (stepLens initIndex : Nat) :
    Nat → Nat → Stop
  | 0, tIndex => .left tIndex
  | n + 1, tIndex =>
    if (exprTypes tIndex).hash ≠ 0 then
      if (exprTypes tIndex).hash = eHash ∧ (exprTypes tIndex).stepLens = stepLens then
        .found tIndex
      else
        let next := if tIndex + 1 = exprListSize then 0 else tIndex + 1
        if next = initIndex then .left next else scan exprTypes eHash stepLens initIndex n next
    else .left tIndex

def findExpression (t : Table) (steps : List Int) : Option (Option Nat) :=
  if t.exprNum = 0 then some none
  else
    let eHash := calculateHash steps
    match homeIndex? eHash with
    | none => none
    | some init =>
      match scan t.exprTypes eHash steps.length init exprListSize init with
      | .found i => some (some i)
      | .left _ => some none

/-- Fill entry `i`; the steps behind the new ones stay as they are. -/
def store (t : Table) (i : Nat) (steps : List Int) : Table where
  exprTypes := Function.update t.exprTypes i
    { eIndex := i
      expressionId := t.exprNum + 1
      stepLens := steps.length
      hash := calculateHash steps
      steps := fun j => steps.getD j ((t.exprTypes i).steps j) }
  exprNum := t.exprNum + 1
  updateExprList := true

def addExpression (t : Table) (steps : List Int) : Option (Table × Option Nat) :=
  match findExpression t steps with
  | none => none
  | some (some i) => some (t, some i)
  | some none =>
    let t := { t with updateExprList := true }
    let eHash := calculateHash steps
    match homeIndex? eHash with
    | none => none
    | some init =>
      match scan t.exprTypes eHash steps.length init exprListSize init with
      | .found i => some (t, some i)
      | .left i =>
        if (t.exprTypes i).hash = 0 then
          if steps.length ≤ exprSize then some (store t i steps, some i) else none
        else some (t, none)

def addAll : Table → List (List Int) → Option (Table × List (Option ExprSteps))
  | t, [] => some (t, [])
  | t, steps :: rest =>
    match addExpression t steps with
    | none => none
    | some (t, entry) =>
      match addAll t rest with
      | none => none
      | some (last, entries) => some (last, entry.map t.exprTypes :: entries)

lemma addAll_cons {last : Table} {rest : List (List Int)} {entries : List (Option ExprSteps)} :
    addAll t (steps :: rest) = some (last, entries) ↔ ∃ t' r entries', addExpression t steps = some (t', r) ∧
        addAll t' rest = some (last, entries') ∧ entries = r.map t'.exprTypes :: entries' := by
  simp only [addAll]
  constructor
  · intro ran
    split at ran
    · cases ran
    · rename_i t' r first
      split at ran
      · cases ran
      · rename_i last' entries' others
        cases ran
        exact ⟨t', r, entries', first, others, rfl⟩
  · rintro ⟨t', r, entries', first, others, rfl⟩
    simp only [first, others]

/-! ## The table as a probe table -/

def key (steps : List Int) : Int × Nat := (calculateHash steps, steps.length)

def home (k : Int × Nat) : Nat := (homeIndex k.1).toNat

/-- The keys of the entries; an entry whose hash is 0 counts as empty. -/
def Table.keys (t : Table) : Nat → Option (Int × Nat) := fun i =>
  if (t.exprTypes i).hash = 0 then none else some ((t.exprTypes i).hash, (t.exprTypes i).stepLens)

lemma homeIndex_lt (eHash : Int) : homeIndex eHash < exprListSize :=
  Int.tmod_lt_of_pos eHash (by decide)

lemma home_lt (k : Int × Nat) : home k < exprListSize := by
  have := homeIndex_lt k.1
  simp only [home, exprListSize] at *
  omega

lemma homeIndex_of_nonneg {eHash : Int} (h : 0 ≤ eHash) : 0 ≤ homeIndex eHash :=
  Int.tmod_nonneg _ h

lemma homeIndex?_of_nonneg (h : 0 ≤ homeIndex (calculateHash steps)) :
    homeIndex? (calculateHash steps) = some (home (key steps)) := by
  simp [homeIndex?, h, home, key]

lemma keys_eq_none {i : Nat} : t.keys i = none ↔ (t.exprTypes i).hash = 0 := by
  simp [Table.keys]

lemma keys_eq_some {i : Nat} {k : Int × Nat} : t.keys i = some k ↔
    (t.exprTypes i).hash ≠ 0 ∧ k = ((t.exprTypes i).hash, (t.exprTypes i).stepLens) := by
  simp only [Table.keys]
  split_ifs with empty
  · simp [empty]
  · simp [empty, eq_comm]

lemma scan_next {eHash : Int} {stepLens start d : Nat} (n : Nat)
    {other : Int × Nat} (occupied : t.keys (after exprListSize start d) = some other)
    (differs : other ≠ (eHash, stepLens)) :
    scan t.exprTypes eHash stepLens start (n + 1) (after exprListSize start d) =
      if after exprListSize start (d + 1) = start then .left start
      else scan t.exprTypes eHash stepLens start n (after exprListSize start (d + 1)) := by
  obtain ⟨nonempty, rfl⟩ := keys_eq_some.mp occupied
  have next : (if after exprListSize start d + 1 = exprListSize then 0
      else after exprListSize start d + 1) = after exprListSize start (d + 1) := by
    have bound : after exprListSize start d < exprListSize := after_lt (by decide) d
    rw [← after_succ]
    split_ifs with last
    · rw [last, Nat.mod_self]
    · rw [Nat.mod_eq_of_lt (by omega)]
  have mismatch : ¬ ((t.exprTypes (after exprListSize start d)).hash = eHash ∧
      (t.exprTypes (after exprListSize start d)).stepLens = stepLens) := by
    rintro ⟨rfl, rfl⟩
    exact differs rfl
  simp only [scan, nonempty, ne_eq, not_false_eq_true, if_true, mismatch, if_false, next]
  split_ifs with back
  · rw [back]
  · rfl

/-- The end of the loop that corresponds to the end of a lookup. -/
def Stop.ofOutcome (start : Nat) : Outcome → Stop
  | .hit i => .found i
  | .free i => .left i
  | .full => .left start

/-- The loop stops in an empty slot and in the slot of its key, as a lookup does. -/
lemma scan_here {eHash : Int} {stepLens start i : Nat} (n : Nat)
    (stops : t.keys i = none ∨ t.keys i = some (eHash, stepLens)) :
    scan t.exprTypes eHash stepLens start (n + 1) i =
      .ofOutcome start (probe exprListSize t.keys (eHash, stepLens) (n + 1) i) := by
  rcases stops with empty | same
  · simp [probe, empty, scan, keys_eq_none.mp empty, Stop.ofOutcome]
  · obtain ⟨nonempty, eq⟩ := keys_eq_some.mp same
    cases eq
    simp [probe, same, scan, nonempty, Stop.ofOutcome]

lemma scan_probe (t : Table) (eHash : Int) (stepLens start : Nat) (inside : start < exprListSize)
    (n d : Nat) (total : d + (n + 1) = exprListSize) :
    scan t.exprTypes eHash stepLens start (n + 1) (after exprListSize start d) = .ofOutcome start
        (probe exprListSize t.keys (eHash, stepLens) (n + 1) (after exprListSize start d)) := by
  induction n generalizing d with
  | zero =>
    cases here : t.keys (after exprListSize start d) with
    | none => exact scan_here 0 (.inl here)
    | some other =>
      by_cases same : other = (eHash, stepLens)
      · exact scan_here 0 (.inr (same ▸ here))
      · have back := (after_eq_start_iff inside (Nat.succ_pos d) (by omega)).mpr total
        rw [scan_next 0 here same, if_pos back]
        simp [probe, here, same, Stop.ofOutcome]
  | succ n ih =>
    cases here : t.keys (after exprListSize start d) with
    | none => exact scan_here (n + 1) (.inl here)
    | some other =>
      by_cases same : other = (eHash, stepLens)
      · exact scan_here (n + 1) (.inr (same ▸ here))
      · have away : after exprListSize start (d + 1) ≠ start := fun back => by
          have := (after_eq_start_iff inside (Nat.succ_pos d) (by omega)).mp back
          omega
        rw [scan_next (n + 1) here same, if_neg away, ih (d + 1) (by omega), ← after_succ d]
        simp [probe, here, same]

/-- **The loop is a lookup of the key.** -/
theorem scan_eq_lookup (t : Table) (steps : List Int) :
    scan t.exprTypes (calculateHash steps) steps.length (home (key steps)) exprListSize (home (key steps)) =
      .ofOutcome (home (key steps)) (lookup exprListSize home t.keys (key steps)) := by
  have inside := home_lt (key steps)
  have whole := scan_probe t (calculateHash steps) steps.length (home (key steps)) inside 255 0 rfl
  rwa [after_zero inside] at whole

lemma findExpression_eq
    (inside : 0 ≤ homeIndex (calculateHash steps)) (used : t.exprNum ≠ 0) :
    findExpression t steps = some (match lookup exprListSize home t.keys (key steps) with
      | .hit i => some i
      | _ => none) := by
  simp only [findExpression, used, if_false, homeIndex?_of_nonneg inside, scan_eq_lookup]
  cases lookup exprListSize home t.keys (key steps) <;> rfl

lemma findExpression_miss (inside : 0 ≤ homeIndex (calculateHash steps))
    (miss : ∀ i, lookup exprListSize home t.keys (key steps) ≠ .hit i) : findExpression t steps = some none := by
  by_cases used : t.exprNum = 0
  · simp [findExpression, used]
  · rw [findExpression_eq inside used]
    cases outcome : lookup exprListSize home t.keys (key steps) with
    | hit i => exact absurd outcome (miss i)
    | free i => rfl
    | full => rfl

/-- The two loops of `add_expression`: the first finds the key, or both end in an empty
entry, or both come around a full table. -/
lemma loops_cases (inside : 0 ≤ homeIndex (calculateHash steps))
    (unused : t.exprNum = 0 → ∀ i, t.keys i = none) :
    (∃ i, lookup exprListSize home t.keys (key steps) = .hit i ∧ findExpression t steps = some (some i)) ∨
    ∃ i, findExpression t steps = some none ∧
      scan t.exprTypes (calculateHash steps) steps.length (home (key steps)) exprListSize (home (key steps)) = .left i ∧
      ((lookup exprListSize home t.keys (key steps) = .free i ∧ (t.exprTypes i).hash = 0) ∨
        (lookup exprListSize home t.keys (key steps) = .full ∧ (t.exprTypes i).hash ≠ 0)) := by
  have bound := home_lt (key steps)
  have scanned := scan_eq_lookup t steps
  cases outcome : lookup exprListSize home t.keys (key steps) with
  | hit i =>
    have used : t.exprNum ≠ 0 := by
      intro zero
      rcases lookup_cases t.keys bound with ⟨c, _, _, here⟩ | ⟨c, _, eq, _⟩ | ⟨eq, _⟩
      · rw [unused zero] at here
        cases here
      · rw [outcome] at eq
        cases eq
      · rw [outcome] at eq
        cases eq
    exact .inl ⟨i, rfl, by rw [findExpression_eq inside used, outcome]⟩
  | free i =>
    obtain ⟨_, _, _, empty, _⟩ := lookup_free bound outcome
    have missed := findExpression_miss (t := t) inside (by simp [outcome])
    rw [outcome] at scanned
    exact .inr ⟨i, missed, scanned, .inl ⟨rfl, keys_eq_none.mp empty⟩⟩
  | full =>
    obtain ⟨other, occupied, _⟩ := lookup_full bound outcome bound
    have missed := findExpression_miss (t := t) inside (by simp [outcome])
    rw [outcome] at scanned
    exact .inr ⟨_, missed, scanned, .inr ⟨rfl, (keys_eq_some.mp occupied).1⟩⟩

/-- **What a call of `add_expression` does.** -/
theorem addExpression_eq (inside : 0 ≤ homeIndex (calculateHash steps))
    (unused : t.exprNum = 0 → ∀ i, t.keys i = none) :
    addExpression t steps = match lookup exprListSize home t.keys (key steps) with
      | .hit i => some (t, some i)
      | .free i => if steps.length ≤ exprSize then some (store t i steps, some i) else none
      | .full => some ({ t with updateExprList := true }, none) := by
  obtain ⟨i, hit, found⟩ | ⟨i, missed, scanned, ends⟩ := loops_cases inside unused
  · simp only [addExpression, found, hit]
  · obtain ⟨free, empty⟩ | ⟨full, occupied⟩ := ends
    · simp only [addExpression, missed, homeIndex?_of_nonneg inside, scanned, empty, if_true, free]
      rfl
    · simp only [addExpression, missed, homeIndex?_of_nonneg inside, scanned, occupied, if_false,
        full]

/-- A call whose home index lies in front of the table leaves it. -/
lemma addExpression_outside
    (outside : ¬ 0 ≤ homeIndex (calculateHash steps)) : addExpression t steps = none := by
  have nowhere : homeIndex? (calculateHash steps) = none := by
    simp [homeIndex?, outside]
  by_cases used : t.exprNum = 0
  · simp [addExpression, findExpression, used, nowhere]
  · simp [addExpression, findExpression, used, nowhere]

/-- A call returned: it found the key, it stored its steps in a free entry, or the table was full. -/
inductive Returned (t : Table) (steps : List Int) : Table → Option Nat → Prop
  | hit {i : Nat} (found : lookup exprListSize home t.keys (key steps) = .hit i) (inside : i < exprListSize)
      (stored : t.keys i = some (key steps)) : Returned t steps t (some i)
  | free {i : Nat} (found : lookup exprListSize home t.keys (key steps) = .free i) (inside : i < exprListSize)
      (empty : t.keys i = none) (short : steps.length ≤ exprSize) : Returned t steps (store t i steps) (some i)
  | full (found : lookup exprListSize home t.keys (key steps) = .full)
      (taken : ∀ i < exprListSize, ∃ other, t.keys i = some other ∧ other ≠ key steps) :
      Returned t steps { t with updateExprList := true } none

lemma addExpression_returned {t' : Table} {r : Option Nat} (unused : t.exprNum = 0 → ∀ i, t.keys i = none)
    (ran : addExpression t steps = some (t', r)) : 0 ≤ homeIndex (calculateHash steps) ∧ Returned t steps t' r := by
  have bound := home_lt (key steps)
  by_cases inside : 0 ≤ homeIndex (calculateHash steps)
  · refine ⟨inside, ?_⟩
    rw [addExpression_eq inside unused] at ran
    obtain ⟨c, _, found, stored⟩ | ⟨c, _, found, empty, _⟩ | ⟨found, _⟩ := lookup_cases t.keys bound
    · rw [found] at ran
      cases ran
      exact .hit found (after_lt (by decide) c) stored
    · simp only [found, Option.ite_none_right_eq_some, Option.some.injEq, Prod.mk.injEq] at ran
      obtain ⟨short, rfl, rfl⟩ := ran
      exact .free found (after_lt (by decide) c) empty short
    · rw [found] at ran
      cases ran
      exact .full found fun i hi => lookup_full bound found hi
  · rw [addExpression_outside inside] at ran
    cases ran

/-! ## What the table is for

`log` lists the sequences in the order in which they got their numbers. A
sequence whose hash is 0 gets a number but leaves no mark in the table. -/

lemma stepList_store (t : Table) (i : Nat) (steps : List Int) : ((store t i steps).exprTypes i).stepList = steps := by
  apply List.ext_getElem
  · simp [ExprSteps.stepList, store]
  · intro j _ hj
    simp [ExprSteps.stepList, store, hj]

lemma keys_store (t : Table) (i : Nat) (steps : List Int) (empty : t.keys i = none) : (store t i steps).keys =
      if calculateHash steps = 0 then t.keys else Function.update t.keys i (some (key steps)) := by
  funext j
  by_cases same : j = i
  · subst same
    split_ifs with zero
    · rw [empty, keys_eq_none]
      simp [store, zero]
    · rw [Function.update_self, keys_eq_some]
      simp [store, zero, key]
  · have other : (store t i steps).keys j = t.keys j := by
      simp [Table.keys, store, Function.update_of_ne same]
    rw [other]
    split_ifs
    · rfl
    · rw [Function.update_of_ne same]

/-- The table holds what was logged, with the numbers of the log. -/
structure Refines (log : List (List Int)) (t : Table) : Prop where
  reached : Reached exprListSize home t.keys
  count : t.exprNum = log.length
  entry : ∀ i k, i < exprListSize → t.keys i = some k →
    ∃ m steps, log[m]? = some steps ∧ key steps = k ∧ (t.exprTypes i).expressionId = m + 1 ∧
      (t.exprTypes i).stepList = steps
  logged : ∀ m steps, log[m]? = some steps → calculateHash steps ≠ 0 →
    ∃ i, i < exprListSize ∧ t.keys i = some (key steps) ∧ (t.exprTypes i).expressionId = m + 1
  outside : ∀ i, exprListSize ≤ i → t.keys i = none

lemma refines_initial (garbage : Nat → Nat → Int) : Refines [] (initial garbage) where
  reached := by
    have empty : (initial garbage).keys = fun _ => none := rfl
    rw [empty]
    exact reached_empty
  count := rfl
  entry i k _ stored := by cases stored
  logged m steps logged := by simp at logged
  outside _ _ := rfl

lemma Refines.unused {log : List (List Int)} (refines : Refines log t)
    (zero : t.exprNum = 0) (i : Nat) : t.keys i = none := by
  by_cases hi : i < exprListSize
  · cases stored : t.keys i with
    | none => rfl
    | some k =>
      obtain ⟨m, steps, logged, _⟩ := refines.entry i k hi stored
      have empty : log = [] := List.length_eq_zero_iff.mp (refines.count ▸ zero)
      rw [empty] at logged
      cases logged
  · exact refines.outside i (Nat.le_of_not_lt hi)

lemma Refines.store {log : List (List Int)} {i : Nat}
    (refines : Refines log t) (free : lookup exprListSize home t.keys (key steps) = .free i) :
    Refines (log ++ [steps]) (store t i steps) := by
  have bound := home_lt (key steps)
  obtain ⟨c, _, place, empty, _⟩ := lookup_free bound free
  have hi : i < exprListSize := by
    rw [place]
    exact after_lt (by decide) c
  have keys := keys_store t i steps empty
  have kept : ∀ j, j ≠ i → (ExprTable.store t i steps).exprTypes j = t.exprTypes j := fun j ne =>
    Function.update_of_ne ne _ _
  have new : ((ExprTable.store t i steps).exprTypes i).expressionId = log.length + 1 := by
    simp [ExprTable.store, refines.count]
  constructor
  · rw [keys]
    split_ifs
    · exact refines.reached
    · exact refines.reached.insert bound free
  · simp [ExprTable.store, refines.count]
  · intro j k hj stored
    by_cases same : j = i
    · subst same
      refine ⟨log.length, steps, by simp, ?_, new, stepList_store t j steps⟩
      obtain ⟨_, rfl⟩ := keys_eq_some.mp stored
      simp [ExprTable.store, key]
    · have stored' : t.keys j = some k := by
        rw [← stored]
        simp [Table.keys, kept j same]
      obtain ⟨m, other, logged, eq, number, list⟩ := refines.entry j k hj stored'
      refine ⟨m, other, ?_, eq, by rw [kept j same, number], by rw [kept j same, list]⟩
      exact (List.getElem?_append_left (List.getElem?_eq_some_iff.mp logged).1).trans logged
  · intro m other logged nonzero
    by_cases old : m < log.length
    · rw [List.getElem?_append_left old] at logged
      obtain ⟨j, hj, stored, number⟩ := refines.logged m other logged nonzero
      have ne : j ≠ i := by
        rintro rfl
        rw [empty] at stored
        cases stored
      refine ⟨j, hj, ?_, by rw [kept j ne, number]⟩
      rw [← stored]
      simp [Table.keys, kept j ne]
    · have last : m = log.length ∧ other = steps := by
        rw [List.getElem?_append_right (by omega), List.getElem?_singleton] at logged
        split_ifs at logged with zero
        cases logged
        exact ⟨by omega, rfl⟩
      obtain ⟨rfl, rfl⟩ := last
      refine ⟨i, hi, ?_, new⟩
      rw [keys, if_neg nonzero, Function.update_self]
  · intro j hj
    have ne : j ≠ i := by omega
    have same : (ExprTable.store t i steps).keys j = t.keys j := by
      simp [Table.keys, kept j ne]
    rw [same]
    exact refines.outside j hj

section Log

variable {log : List (List Int)} {t : Table} {steps : List Int}

lemma Refines.marked (refines : Refines log t) (mark : Bool) : Refines log { t with updateExprList := mark } :=
  ⟨refines.reached, refines.count, refines.entry, refines.logged, refines.outside⟩

/-- A call logs its steps, or finds an entry of the log. -/
lemma addExpression_logged {t' : Table} {r : Option Nat} (refines : Refines log t)
    (ran : addExpression t steps = some (t', r)) :
    ∃ log' ≠ [], Refines log' t' ∧ (log' = log ∨ log' = log ++ [steps]) ∧
      ∀ i ∈ r, ∃ m, (t'.exprTypes i).expressionId = m + 1 ∧ log'[m]? = some (t'.exprTypes i).stepList := by
  have used {i k} (hi : i < exprListSize) (stored : t.keys i = some k) : log ≠ [] := by
    rintro rfl
    obtain ⟨m, _, logged, _⟩ := refines.entry i k hi stored
    cases logged
  cases (addExpression_returned refines.unused ran).2 with
  | hit _ inside stored =>
    obtain ⟨m, _, logged, _, number, list⟩ := refines.entry _ _ inside stored
    exact ⟨log, used inside stored, refines, .inl rfl, by simp [number, list, logged]⟩
  | free found =>
    refine ⟨_, by simp, refines.store found, .inr rfl, ?_⟩
    rintro _ ⟨⟩
    exact ⟨log.length, by simp [store, refines.count], by simp [stepList_store]⟩
  | full _ taken =>
    obtain ⟨_, stored, _⟩ := taken 0 (by decide)
    exact ⟨log, used (by decide) stored, refines.marked true, .inl rfl, by simp⟩

lemma Refines.id_injective (refines : Refines log t) {i j : Nat} {k l : Int × Nat}
    (hi : i < exprListSize) (hj : j < exprListSize) (first : t.keys i = some k) (second : t.keys j = some l)
    (same : (t.exprTypes i).expressionId = (t.exprTypes j).expressionId) : i = j := by
  obtain ⟨m, s, logged, rfl, number, _⟩ := refines.entry i k hi first
  obtain ⟨n, s', logged', rfl, number', _⟩ := refines.entry j l hj second
  obtain rfl : m = n := by omega
  rw [logged] at logged'
  cases logged'
  exact refines.reached.distinct i j _ hi hj first second

lemma Refines.full_length (refines : Refines log t)
    (full : ∀ i, i < exprListSize → t.keys i ≠ none) : exprListSize ≤ log.length := by
  have occupied : ∀ i, i < exprListSize → ∃ k, t.keys i = some k := fun i hi =>
    Option.ne_none_iff_exists'.mp (full i hi)
  have card := Finset.card_le_card_of_injOn (s := Finset.range exprListSize)
    (t := Finset.range log.length) (fun i => (t.exprTypes i).expressionId - 1)
    (by
      intro i hi
      obtain ⟨k, stored⟩ := occupied i (Finset.mem_range.mp hi)
      obtain ⟨m, s, logged, _, number, _⟩ := refines.entry i k (Finset.mem_range.mp hi) stored
      have bound := (List.getElem?_eq_some_iff.mp logged).1
      simp only [Finset.coe_range, Set.mem_Iio]
      omega)
    (by
      intro i hi j hj same
      simp only [Finset.coe_range, Set.mem_Iio] at hi hj
      obtain ⟨k, stored⟩ := occupied i hi
      obtain ⟨l, stored'⟩ := occupied j hj
      obtain ⟨m, _, _, _, number, _⟩ := refines.entry i k hi stored
      obtain ⟨n, _, _, _, number', _⟩ := refines.entry j l hj stored'
      exact refines.id_injective hi hj stored stored' (by simp only at same; omega))
  simpa using card

lemma Refines.length_le (refines : Refines log t) (marks : ∀ s ∈ log, calculateHash s ≠ 0)
    (slots : Finset Nat) (all : ∀ i, i < exprListSize → t.keys i ≠ none → i ∈ slots) : log.length ≤ slots.card := by
  have entries : ∀ m, ∃ j, m < log.length → j ∈ slots ∧ (t.exprTypes j).expressionId = m + 1 := by
    intro m
    by_cases hm : m < log.length
    · obtain ⟨j, hj, stored, number⟩ := refines.logged m log[m] (List.getElem?_eq_getElem hm)
        (marks _ (List.getElem_mem hm))
      exact ⟨j, fun _ => ⟨all j hj (by rw [stored]; exact Option.some_ne_none _), number⟩⟩
    · exact ⟨0, fun h => absurd h hm⟩
  choose slot spec using entries
  have card := Finset.card_le_card_of_injOn (s := Finset.range log.length) (t := slots) slot
    (fun m hm => (spec m (by simpa using hm)).1)
    (by
      intro m hm n hn same
      have number := (spec m (by simpa using hm)).2
      have number' := (spec n (by simpa using hn)).2
      rw [same] at number
      omega)
  simpa using card

lemma Refines.free_length (refines : Refines log t)
    (marks : ∀ s ∈ log, calculateHash s ≠ 0) {i : Nat} (hi : i < exprListSize)
    (empty : t.keys i = none) : log.length < exprListSize := by
  have card := refines.length_le marks ((Finset.range exprListSize).erase i) (by
    intro j hj stored
    exact Finset.mem_erase.mpr ⟨fun same => stored (same ▸ empty), Finset.mem_range.mpr hj⟩)
  rw [Finset.card_erase_of_mem (Finset.mem_range.mpr hi), Finset.card_range] at card
  omega

lemma Refines.stored_iff (refines : Refines log t) (nonzero : calculateHash steps ≠ 0) :
    (∃ i, i < exprListSize ∧ t.keys i = some (key steps)) ↔ key steps ∈ log.map key := by
  constructor
  · rintro ⟨i, hi, stored⟩
    obtain ⟨m, s, logged, same, _⟩ := refines.entry i _ hi stored
    exact List.mem_map.mpr ⟨s, List.mem_of_getElem? logged, same⟩
  · intro member
    obtain ⟨s, inLog, same⟩ := List.mem_map.mp member
    obtain ⟨m, logged⟩ := List.mem_iff_getElem?.mp inLog
    have hash : calculateHash s = calculateHash steps := congrArg Prod.fst same
    obtain ⟨i, hi, stored, _⟩ := refines.logged m s logged (by rwa [hash])
    exact ⟨i, hi, same ▸ stored⟩

end Log

end Hex.Kernel.ExprTable
