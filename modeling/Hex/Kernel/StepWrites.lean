/-
# Kernel.StepWrites — what is written into the arrays of steps

The steps of an expression are copied three times: `parse_expression_file` collects
those of a line in a local array, `add_expression` stores them in an entry of the
table, and `jit_compile_expr` in a record of the statement. Each of these arrays has
`EXPR_SIZE` elements, and each loop runs over all steps of the expression.

`callWrites` and `lineWrites` list the elements that a call and a line write, in the
order of the source. `none` stands for a lookup that starts in front of the table,
from where on nothing is known. `step_writes_bounded_iff` says when the lists stay
inside; where they do not, `jitCompileExpr` and `parseLine` return `none`
(`jitCompileExpr_of_unbounded`, `parseLine_of_unbounded`).
-/
import Hex.Kernel.Session
import Hex.Kernel.ExprFile

namespace Hex.Kernel.StepWrites

open ExprTable ExprFile Session PlanRecords
open Theory.CText Theory.ProbeTable

variable {steps : List Int}

/-- The arrays of `EXPR_SIZE` steps: of an entry of `exprTypes`, of a record of
`currentSQLExprs`, and the local one of `parse_expression_file`. -/
inductive StepsArray where
  | entry (i : Nat)
  | record (i : Nat)
  | parser
  deriving DecidableEq, Repr

/-- A write `array[index] = …`. -/
structure Write where
  array : StepsArray
  index : Nat
  deriving DecidableEq, Repr

/-- `for (int i = 0; i < n; i++) array[i] = …;` -/
def copyLoop (array : StepsArray) (n : Nat) : List Write := (List.range n).map (⟨array, ·⟩)

/-- The entry `add_expression` ends with: one that has the key, an empty one that it
fills, or none. -/
inductive Placed where
  | found (i : Nat)
  | new (i : Nat)
  | refused
  deriving DecidableEq, Repr

/-- The way of `add_expression` to its entry. -/
def place (t : Table) (steps : List Int) : Option Placed :=
  match findExpression t steps with
  | none => none
  | some (some i) => some (.found i)
  | some none =>
    match homeIndex? (calculateHash steps) with
    | none => none
    | some init =>
      match scan t.exprTypes (calculateHash steps) steps.length init exprListSize init with
      | .found i => some (.found i)
      | .left i => if (t.exprTypes i).hash = 0 then some (.new i) else some .refused

/-- What `add_expression` writes. -/
def entryWrites (steps : List Int) : Placed → List Write
  | .new i => copyLoop (.entry i) steps.length
  | _ => []

section Session

variable {D : Type} [DecidableEq D]

/-- What `jit_compile_expr` writes besides: the record of an expression that is not
among those of the statement. -/
def recordWrites (mem : Memory D) (s : State D) (plan : Option (PlanNode D)) (steps : List Int) :
    Placed → List Write
  | .refused => []
  | _ =>
    match plan with
    | none => []
    | some node =>
      if s.currentSQLExprs.any (infoMatches mem { s with tick := s.tick + 1 } steps node.key) then
        []
      else copyLoop (.record s.currentSQLExprs.length) steps.length

/-- What a call of `jit_compile_expr` writes. -/
def callWrites (mem : Memory D) (s : State D) (plan : Option (PlanNode D)) (steps : List Int) :
    Option (List Write) :=
  (place s.table steps).map fun placed =>
    entryWrites steps placed ++ recordWrites mem s plan steps placed

end Session

def lineWrites (t : Table) (line : Text) : Option (List Write) :=
  match lineSteps line with
  | none => some []
  | some steps => (place t steps).map fun placed =>
    copyLoop .parser steps.length ++ entryWrites steps placed

/-- Every write is known, and lies inside its array. -/
def Bounded (writes : Option (List Write)) : Prop :=
  ∃ ws, writes = some ws ∧ ∀ w ∈ ws, w.index < exprSize

/-! ## The tables a backend can have -/

/-- The tables that calls, and files that are read again, lead to as long as the program
stays in its arrays. -/
inductive Reachable : Table → Prop
  | initial (garbage : Nat → Nat → Int) : Reachable (initial garbage)
  | added {t t' : Table} {steps : List Int} {r : Option Nat} (before : Reachable t)
      (ran : addExpression t steps = some (t', r)) : Reachable t'
  | allocated {t : Table} (before : Reachable t) (garbage : Nat → Nat → Int) :
      Reachable { t with exprTypes := initializeExprStepsList garbage }

lemma addExpression_short {t t' : Table} {r : Option Nat} (sound : Sound t)
    (short : ∀ i, (t.exprTypes i).stepLens ≤ exprSize) (ran : addExpression t steps = some (t', r)) (i : Nat) :
    (t'.exprTypes i).stepLens ≤ exprSize := by
  cases (addExpression_returned sound.unused ran).2 with
  | hit | full => exact short i
  | @free j _ _ _ few =>
    by_cases same : i = j
    · rw [same]
      simpa [store] using few
    · simp only [store, Function.update_of_ne same]
      exact short i

/-- Every such table is sound and has no entry longer than its array. -/
lemma Reachable.sound {t : Table} (reachable : Reachable t) : Sound t ∧ ∀ i, (t.exprTypes i).stepLens ≤ exprSize := by
  induction reachable with
  | initial garbage => exact ⟨sound_initial garbage, fun _ => Nat.zero_le _⟩
  | added before ran ih =>
    obtain ⟨sound, short⟩ := ih
    exact ⟨sound.addExpression ran, addExpression_short sound short ran⟩
  | allocated before garbage ih => exact ⟨⟨fun _ _ => rfl, fun _ => Nat.zero_le _⟩, fun _ => Nat.zero_le _⟩

/-! ## Where a call ends -/

section Place

variable {t : Table} {steps : List Int}

/-- The lookup of the key, as the entry `add_expression` ends with. -/
def Placed.ofOutcome : Outcome → Placed
  | .hit i => .found i
  | .free i => .new i
  | .full => .refused

lemma place_eq (inside : 0 ≤ homeIndex (calculateHash steps)) (unused : t.exprNum = 0 → ∀ i, t.keys i = none) :
    place t steps = some (.ofOutcome (lookup exprListSize home t.keys (key steps))) := by
  obtain ⟨i, hit, found⟩ | ⟨i, missed, scanned, ends⟩ := loops_cases inside unused
  · simp only [place, found, hit, Placed.ofOutcome]
  · obtain ⟨free, empty⟩ | ⟨full, occupied⟩ := ends
    · simp only [place, missed, homeIndex?_of_nonneg inside, scanned, empty, if_true, free,
        Placed.ofOutcome]
    · simp only [place, missed, homeIndex?_of_nonneg inside, scanned, occupied, if_false, full,
        Placed.ofOutcome]

lemma place_outside (outside : ¬ 0 ≤ homeIndex (calculateHash steps)) : place t steps = none := by
  have nowhere : homeIndex? (calculateHash steps) = none := by
    simp [homeIndex?, outside]
  by_cases used : t.exprNum = 0
  · simp [place, findExpression, used, nowhere]
  · simp [place, findExpression, used, nowhere]

/-- A table without an empty entry. -/
def Full (t : Table) : Prop := ∀ i, i < exprListSize → (t.exprTypes i).hash ≠ 0

/-- An expression that is longer than the entries is in none of them: it gets an empty
one when there is one. -/
lemma place_long (inside : 0 ≤ homeIndex (calculateHash steps)) (reachable : Reachable t)
    (long : exprSize < steps.length) :
    (Full t ∧ place t steps = some .refused) ∨ (¬ Full t ∧ ∃ i, place t steps = some (.new i)) := by
  obtain ⟨sound, short⟩ := reachable.sound
  have bound := home_lt (key steps)
  rw [place_eq inside sound.unused]
  rcases lookup_cases t.keys bound with ⟨c, _, _, here⟩ | ⟨c, _, eq, empty, _⟩ | ⟨eq, others⟩
  · have same : steps.length = (t.exprTypes (after exprListSize (home (key steps)) c)).stepLens :=
      congrArg Prod.snd (keys_eq_some.mp here).2
    have few := short (after exprListSize (home (key steps)) c)
    omega
  · refine .inr ⟨fun full => ?_, _, by rw [eq]; rfl⟩
    exact full _ (after_lt (by decide) c) (keys_eq_none.mp empty)
  · refine .inl ⟨fun i hi => ?_, by rw [eq]; rfl⟩
    obtain ⟨other, occupied, _⟩ := lookup_full bound eq hi
    exact (keys_eq_some.mp occupied).1

end Place

/-! ## When the writes stay inside -/

lemma copyLoop_bounded {array : StepsArray} {n : Nat} :
    (∀ w ∈ copyLoop array n, w.index < exprSize) ↔ n ≤ exprSize := by
  simp only [copyLoop, List.forall_mem_map, List.mem_range]
  refine ⟨fun inside => ?_, fun few i below => below.trans_le few⟩
  by_contra long
  exact absurd (inside exprSize (Nat.lt_of_not_le long)) (lt_irrefl _)

lemma entryWrites_bounded (few : steps.length ≤ exprSize) (placed : Placed) :
    ∀ w ∈ entryWrites steps placed, w.index < exprSize := by
  cases placed with
  | new i => exact copyLoop_bounded.mpr few
  | found | refused => exact fun w none => absurd none List.not_mem_nil

lemma bounded_none : ¬ Bounded none := by
  rintro ⟨_, eq, _⟩
  cases eq

lemma bounded_some {ws : List Write} : Bounded (some ws) ↔ ∀ w ∈ ws, w.index < exprSize := by
  constructor
  · rintro ⟨_, eq, inside⟩
    cases eq
    exact inside
  · exact fun inside => ⟨ws, rfl, inside⟩

section Calls

variable {D : Type} [DecidableEq D]

lemma recordWrites_bounded (mem : Memory D) (s : State D) (plan : Option (PlanNode D))
    (few : steps.length ≤ exprSize) (placed : Placed) :
    ∀ w ∈ recordWrites mem s plan steps placed, w.index < exprSize := by
  unfold recordWrites
  split
  · exact fun w none => absurd none List.not_mem_nil
  · split
    · exact fun w none => absurd none List.not_mem_nil
    · split
      · exact fun w none => absurd none List.not_mem_nil
      · exact copyLoop_bounded.mpr few

/-- **A call stays inside** when its lookup starts in the table and its expression is no
longer than the arrays, or is refused. -/
theorem callWrites_bounded_iff (mem : Memory D) {s : State D} (reachable : Reachable s.table)
    (plan : Option (PlanNode D)) (steps : List Int) :
    Bounded (callWrites mem s plan steps) ↔
      0 ≤ homeIndex (calculateHash steps) ∧ (steps.length ≤ exprSize ∨ Full s.table) := by
  by_cases inside : 0 ≤ homeIndex (calculateHash steps)
  · rw [and_iff_right inside]
    by_cases few : steps.length ≤ exprSize
    · refine iff_of_true ?_ (.inl few)
      rw [callWrites, place_eq inside reachable.sound.1.unused, Option.map_some, bounded_some,
        List.forall_mem_append]
      exact ⟨entryWrites_bounded few _, recordWrites_bounded mem s plan few _⟩
    · rw [or_iff_right few]
      obtain ⟨full, refused⟩ | ⟨room, i, new⟩ :=
        place_long inside reachable (Nat.lt_of_not_le few)
      · refine iff_of_true ?_ full
        rw [callWrites, refused, Option.map_some, bounded_some]
        exact fun w none => absurd none List.not_mem_nil
      · refine iff_of_false ?_ room
        rw [callWrites, new, Option.map_some, bounded_some, List.forall_mem_append]
        exact fun both => few (copyLoop_bounded.mp both.1)
  · refine iff_of_false ?_ fun both => inside both.1
    rw [callWrites, place_outside inside]
    exact bounded_none

/-- **A line stays inside** when it has no more steps than the arrays, and its lookup
starts in the table. -/
theorem lineWrites_bounded_iff {t : Table} (reachable : Reachable t) (line : Text) :
    Bounded (lineWrites t line) ↔ ∀ steps, lineSteps line = some steps →
      0 ≤ homeIndex (calculateHash steps) ∧ steps.length ≤ exprSize := by
  unfold lineWrites
  cases read : lineSteps line with
  | none =>
    refine iff_of_true (bounded_some.mpr fun w none => absurd none List.not_mem_nil) ?_
    intro steps some
    cases some
  | some steps =>
    simp only [Option.some.injEq, forall_eq']
    by_cases inside : 0 ≤ homeIndex (calculateHash steps)
    · rw [place_eq inside reachable.sound.1.unused, Option.map_some, bounded_some,
        List.forall_mem_append, copyLoop_bounded, and_iff_right inside]
      exact and_iff_left_of_imp fun few => entryWrites_bounded few _
    · refine iff_of_false ?_ fun both => inside both.1
      rw [place_outside inside]
      exact bounded_none

/-- **The arrays of steps are left exactly** by an expression or a line with more than
`EXPR_SIZE` steps, unless a full table refuses the expression; a lookup that starts in
front of the table guarantees nothing. -/
theorem step_writes_bounded_iff (mem : Memory D) (s : State D) (reachable : Reachable s.table) :
    (∀ plan steps, Bounded (callWrites mem s plan steps) ↔
      0 ≤ homeIndex (calculateHash steps) ∧ (steps.length ≤ exprSize ∨ Full s.table)) ∧
    ∀ line, Bounded (lineWrites s.table line) ↔ ∀ steps, lineSteps line = some steps →
      0 ≤ homeIndex (calculateHash steps) ∧ steps.length ≤ exprSize :=
  ⟨callWrites_bounded_iff mem reachable, lineWrites_bounded_iff reachable⟩

/-- A backend that has seen no expression. -/
def fresh : State Nat := start (initial fun _ _ => 0)

theorem step_writes_bounded_scan : Reachable fresh.table ∧
    Bounded (callWrites (fun _ _ => ⟨0, 0, 0, 0⟩) fresh (some ⟨3, .seqScan, 0, 5, 7⟩) [4, 17, 58, 0]) ∧
    Bounded (lineWrites fresh.table (exprLine 1 [4, 17, 58, 0] ++ [newline])) := by
  have reachable : Reachable fresh.table := .initial _
  obtain ⟨calls, lines⟩ := step_writes_bounded_iff (fun _ _ => ⟨0, 0, 0, 0⟩) fresh reachable
  refine ⟨reachable, (calls _ _).mpr ⟨by decide, .inl (by decide)⟩, (lines _).mpr fun steps read => ?_⟩
  rw [lineSteps_exprLine (by decide)] at read
  cases read
  decide

/-- The 65th step of an expression is written behind the array of its entry; read from a
file, it is written behind the local array before. -/
theorem long_expression_overruns : callWrites (fun _ _ => ⟨0, 0, 0, 0⟩) fresh none (List.replicate 65 1) =
      some (copyLoop (.entry 180) 65) ∧
    lineWrites fresh.table (exprLine 1 (List.replicate 65 1) ++ [newline]) =
      some (copyLoop .parser 65 ++ copyLoop (.entry 180) 65) ∧
    ⟨.entry 180, 64⟩ ∈ copyLoop (.entry 180) 65 ∧ ⟨.parser, 64⟩ ∈ copyLoop .parser 65 := by
  have placed : place fresh.table (List.replicate 65 1) = some (.new 180) := by decide +kernel
  refine ⟨?_, ?_, by decide, by decide⟩
  · rw [callWrites, placed]
    rfl
  · rw [lineWrites, lineSteps_exprLine (List.forall_mem_replicate.mpr (.inr (by decide)))]
    show Option.map _ (place fresh.table (List.replicate 65 1)) = _
    rw [placed]
    rfl

/-! ## The model leaves its arrays where the writes do -/

lemma addExpression_leaves {t : Table} (reachable : Reachable t)
    (leaves : ¬ (0 ≤ homeIndex (calculateHash steps) ∧ (steps.length ≤ exprSize ∨ Full t))) :
    addExpression t steps = none := by
  by_cases inside : 0 ≤ homeIndex (calculateHash steps)
  · obtain ⟨long, room⟩ := not_or.mp (not_and.mp leaves inside)
    obtain ⟨full, _⟩ | ⟨_, i, new⟩ := place_long inside reachable (Nat.lt_of_not_le long)
    · exact absurd full room
    · rw [place_eq inside reachable.sound.1.unused] at new
      rw [addExpression_eq inside reachable.sound.1.unused]
      cases found : lookup exprListSize home t.keys (key steps) with
      | free j => exact if_neg long
      | hit j => simp [found, Placed.ofOutcome] at new
      | full => simp [found, Placed.ofOutcome] at new
  · exact addExpression_outside inside

lemma jitCompileExpr_of_unbounded (mem : Memory D) {s : State D} (reachable : Reachable s.table)
    (plan : Option (PlanNode D)) (unbounded : ¬ Bounded (callWrites mem s plan steps)) :
    jitCompileExpr mem s plan steps = none := by
  rw [callWrites_bounded_iff mem reachable] at unbounded
  simp only [jitCompileExpr, addExpression_leaves reachable unbounded]

end Calls

lemma parseLine_of_unbounded {t : Table} (reachable : Reachable t) {line : Text}
    (unbounded : ¬ Bounded (lineWrites t line)) : parseLine t line = none := by
  rw [lineWrites_bounded_iff reachable, not_forall] at unbounded
  obtain ⟨steps, unbounded⟩ := unbounded
  obtain ⟨read, leaves⟩ := Classical.not_imp.mp unbounded
  rw [parseLine_of_steps t read, enter]
  split_ifs with few
  · rw [addExpression_outside fun inside => leaves ⟨inside, few⟩]
    rfl
  · rfl

end Hex.Kernel.StepWrites
