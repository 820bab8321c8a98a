/-
# Kernel.LevelRun — whole runs of the level search

A repeated statement goes through `exec_simple_query` and `ExplainOnePlan` in
turn for ever. Two things are carried along such a run:

* the counters (`Repetition.timing`): decision `k` is run `decisionRun r k`,
  whatever the decisions do;
* the place (`Repetition.inRun_running`): after `k` decisions the search is at
  `placeAt E k`.
-/
import Hex.Kernel.LevelRecord

namespace Hex.Kernel.LevelSearch

/-! ## What one issue of a repeated statement does -/

section Frame

variable {T : Type} [Zero T] (cfg : Settings) (s : Search T)

/-- What no decision changes: the statement, its number of issues, its slots,
and the global best. -/
structure Kept (T : Type) where
  currentStatement : Option String
  currentExprNum : Nat
  currentStatementExecNum : Nat
  minTotalTime : T
  bestJITLevels : Levels

def Search.kept {T : Type} (s : Search T) : Kept T where
  currentStatement := s.currentStatement
  currentExprNum := s.currentExprNum
  currentStatementExecNum := s.currentStatementExecNum
  minTotalTime := s.minTotalTime
  bestJITLevels := s.bestJITLevels

lemma chooseLevels_kept : (chooseLevels cfg s).kept = s.kept := by
  unfold chooseLevels
  split_ifs
  · rfl
  · rfl
  · unfold sweepOPT3
    dsimp only
    split_ifs <;> rfl
  · unfold sweep
    dsimp only
    split_ifs <;> rfl

omit [Zero T] in
lemma applyBest_kept : (applyBest s).kept = s.kept := by
  unfold applyBest
  split_ifs <;> rfl

lemma decideLevels_kept : (decideLevels cfg s).kept = s.kept :=
  (applyBest_kept (chooseLevels cfg s)).trans (chooseLevels_kept cfg s)

/-- The counters every repeated issue moves. -/
def issued : Search T :=
  { s with countExpr := false, currentStatementExecNum := s.currentStatementExecNum + 1 }

lemma repeatStatement_first (first : s.currentStatementExecNum = 0) : repeatStatement cfg s = { issued s with
      currentExprJITLevels := fill s.currentExprNum (allAt 0) s.currentExprJITLevels
      currentLevelsCount := s.currentLevelsCount + 1 } := by
  simp [repeatStatement, issued, first]

lemma repeatStatement_decide (again : s.currentStatementExecNum ≠ 0)
    (enough : cfg.reserved1 ≤ s.currentLevelsCount) : repeatStatement cfg s = decideLevels cfg (issued s) := by
  simp [repeatStatement, issued, again, enough]

lemma repeatStatement_wait (again : s.currentStatementExecNum ≠ 0) (few : ¬ cfg.reserved1 ≤ s.currentLevelsCount) :
    repeatStatement cfg s = { issued s with currentLevelsCount := s.currentLevelsCount + 1 } := by
  simp [repeatStatement, issued, again, few]

end Frame

namespace Repetition

variable {T : Type} [Zero T] [LinearOrder T] {rep : Repetition T} {n k E : Nat} {cfg : Settings} {s : Search T}

lemma afterRun_position (rep : Repetition T) (n : Nat) : (rep.afterRun n).position = (rep.inRun n).position :=
  explainOnePlan_position rep.cfg (rep.time n) (rep.inRun n)

omit [LinearOrder T] in
lemma execSimpleQuery_again (h : rep.Searching) (s : Search T) (same : s.currentStatement = some rep.query) :
    execSimpleQuery rep.cfg rep.mem rep.query s = repeatStatement rep.cfg s := by
  simp [execSimpleQuery, h.enableME, same, sameText, h.testME]

lemma afterRun_statement (h : (rep.inRun n).currentStatement = some rep.query) :
    (rep.afterRun n).currentStatement = some rep.query :=
  (congrArg Position.currentStatement (rep.afterRun_position n)).trans h

lemma inRun_statement (h : rep.Searching) (n : Nat) : (rep.inRun (n + 1)).currentStatement = some rep.query := by
  induction n with
  | zero => simp [inRun, execSimpleQuery, h.enableME, h.fresh, newStatement, registerSlots]
  | succ n ih =>
    have before := afterRun_statement ih
    change (execSimpleQuery rep.cfg rep.mem rep.query (rep.afterRun (n + 1))).currentStatement = _
    rw [execSimpleQuery_again h _ before, ← before]
    simp only [repeatStatement]
    split_ifs
    · rfl
    · exact congrArg Kept.currentStatement (decideLevels_kept rep.cfg _)
    · rfl

lemma inRun_succ (h : rep.Searching) (n : Nat) : rep.inRun (n + 2) = repeatStatement rep.cfg (rep.afterRun (n + 1)) :=
  execSimpleQuery_again h _ (afterRun_statement (inRun_statement h n))

lemma afterRun_execNum (h : rep.Searching) (n : Nat) : (rep.afterRun (n + 1)).currentStatementExecNum = n := by
  refine (congrArg Position.currentStatementExecNum (rep.afterRun_position (n + 1))).trans ?_
  induction n with
  | zero => simp [Search.position, inRun, execSimpleQuery, h.enableME, h.fresh, newStatement,
      registerSlots]
  | succ n ih =>
    have before := congrArg Position.currentStatementExecNum (rep.afterRun_position (n + 1))
    rw [ih] at before
    change (rep.afterRun (n + 1)).currentStatementExecNum = n at before
    rw [inRun_succ h]
    simp only [repeatStatement, before, Search.position]
    split_ifs
    · rfl
    · exact congrArg Kept.currentStatementExecNum (decideLevels_kept rep.cfg _)
    · rfl

lemma afterRun_levelsCount (rep : Repetition T) (n : Nat) :
    (rep.afterRun n).currentLevelsCount = (rep.inRun n).currentLevelsCount :=
  congrArg Position.currentLevelsCount (rep.afterRun_position n)

lemma inRun_cases (h : rep.Searching) (n : Nat) :
    (n = 0 ∧ ¬ rep.Decides (n + 2) ∧ rep.inRun (n + 2) = { issued (rep.afterRun (n + 1)) with
        currentExprJITLevels := fill (rep.afterRun (n + 1)).currentExprNum (allAt 0)
          (rep.afterRun (n + 1)).currentExprJITLevels
        currentLevelsCount := (rep.afterRun (n + 1)).currentLevelsCount + 1 }) ∨
    (n ≠ 0 ∧ rep.Decides (n + 2) ∧ rep.cfg.reserved1 ≤ (rep.inRun (n + 1)).currentLevelsCount ∧
      rep.inRun (n + 2) = decideLevels rep.cfg (issued (rep.afterRun (n + 1)))) ∨
    (n ≠ 0 ∧ ¬ rep.Decides (n + 2) ∧ (rep.inRun (n + 1)).currentLevelsCount < rep.cfg.reserved1 ∧
      rep.inRun (n + 2) = { issued (rep.afterRun (n + 1)) with
        currentLevelsCount := (rep.afterRun (n + 1)).currentLevelsCount + 1 }) := by
  have number := afterRun_execNum h n
  have count := rep.afterRun_levelsCount (n + 1)
  rw [inRun_succ h]
  by_cases first : n = 0
  · refine .inl ⟨first, ?_, repeatStatement_first _ _ (by omega)⟩
    rintro ⟨_, later, _⟩
    exact later (by simpa [first] using number)
  · by_cases enough : rep.cfg.reserved1 ≤ (rep.inRun (n + 1)).currentLevelsCount
    · refine .inr (.inl ⟨first, ⟨by omega, ?_, ?_⟩, enough, ?_⟩)
      · simpa [number] using first
      · simpa [count] using enough
      · exact repeatStatement_decide _ _ (by omega) (by omega)
    · refine .inr (.inr ⟨first, ?_, by omega, repeatStatement_wait _ _ (by omega) (by omega)⟩)
      rintro ⟨_, _, decided⟩
      exact enough (by simpa [count] using decided)

/-- Issuing the statement changes neither its slots nor the global best. -/
lemma inRun_kept (h : rep.Searching) (n : Nat) :
    (rep.inRun (n + 2)).currentExprNum = (rep.afterRun (n + 1)).currentExprNum ∧
      (rep.inRun (n + 2)).minTotalTime = (rep.afterRun (n + 1)).minTotalTime ∧
      (rep.inRun (n + 2)).bestJITLevels = (rep.afterRun (n + 1)).bestJITLevels := by
  have same := decideLevels_kept rep.cfg (issued (rep.afterRun (n + 1)))
  rcases inRun_cases h n with ⟨_, _, eq⟩ | ⟨_, _, _, eq⟩ | ⟨_, _, _, eq⟩
  · rw [eq]
    exact ⟨rfl, rfl, rfl⟩
  · rw [eq]
    exact ⟨congrArg Kept.currentExprNum same, congrArg Kept.minTotalTime same,
      congrArg Kept.bestJITLevels same⟩
  · rw [eq]
    exact ⟨rfl, rfl, rfl⟩

/-! ## When decisions happen -/

/-- Run `n` is the `k`-th run that takes the deciding branch. -/
def IsDecision (rep : Repetition T) (k n : Nat) : Prop :=
  rep.Decides n ∧ Nat.count rep.Decides n + 1 = k

/-- The run of decision `k`, counted from one, when a vector is repeated `r` times. -/
def decisionRun (r k : Nat) : Nat := max r 1 + 2 + (k - 1) * (r + 1)

lemma decisionRun_succ (r k : Nat) (later : 1 ≤ k) : decisionRun r (k + 1) = decisionRun r k + (r + 1) := by
  obtain ⟨k, rfl⟩ : ∃ i, k = i + 1 := ⟨k - 1, by omega⟩
  simp only [decisionRun, Nat.add_sub_cancel, Nat.add_mul, Nat.one_mul]
  omega

lemma decisionRun_mono (r : Nat) {l : Nat} (first : 1 ≤ k) (later : k < l) :
    decisionRun r k + (r + 1) ≤ decisionRun r l := by
  rw [← decisionRun_succ r k first]
  have steps : (k + 1 - 1) * (r + 1) ≤ (l - 1) * (r + 1) := Nat.mul_le_mul_right _ (by omega)
  simp only [decisionRun]
  omega

lemma levelsCount_two (h : rep.Searching) : ¬ rep.Decides 2 ∧ (rep.inRun 2).currentLevelsCount = 1 := by
  rcases inRun_cases h 0 with ⟨_, waits, eq⟩ | ⟨later, _⟩ | ⟨later, _⟩
  · refine ⟨waits, ?_⟩
    rw [eq]
    simp [afterRun_levelsCount, inRun, execSimpleQuery, h.enableME, h.fresh, newStatement,
      registerSlots]
  · exact absurd rfl later
  · exact absurd rfl later

/-- From the second run on the counter either starts again, in a deciding run, or
goes up by one. -/
lemma levelsCount_succ (h : rep.Searching) (n : Nat) :
    (rep.Decides (n + 3) ∧ rep.cfg.reserved1 ≤ (rep.inRun (n + 2)).currentLevelsCount ∧
      (rep.inRun (n + 3)).currentLevelsCount = 0) ∨
    (¬ rep.Decides (n + 3) ∧ (rep.inRun (n + 2)).currentLevelsCount < rep.cfg.reserved1 ∧
      (rep.inRun (n + 3)).currentLevelsCount = (rep.inRun (n + 2)).currentLevelsCount + 1) := by
  rcases inRun_cases h (n + 1) with ⟨zero, _⟩ | ⟨_, decides, enough, eq⟩ | ⟨_, waits, few, eq⟩
  · omega
  · exact .inl ⟨decides, enough, by rw [eq]; rfl⟩
  · exact .inr ⟨waits, few, by rw [eq, ← afterRun_levelsCount]⟩

/-- **The counters of a run**: after `k` decisions run `n` is the
`currentLevelsCount`-th repetition of the vector of decision `k`. -/
theorem timing (h : rep.Searching) (n : Nat) :
    (Nat.count rep.Decides (n + 3) = 0 ∧ (rep.inRun (n + 2)).currentLevelsCount = n + 1 ∧
      n + 2 < decisionRun rep.cfg.reserved1 1) ∨
    (1 ≤ Nat.count rep.Decides (n + 3) ∧ (rep.inRun (n + 2)).currentLevelsCount ≤ rep.cfg.reserved1 ∧
      n + 2 = decisionRun rep.cfg.reserved1 (Nat.count rep.Decides (n + 3)) +
        (rep.inRun (n + 2)).currentLevelsCount) := by
  induction n with
  | zero =>
    obtain ⟨waits, one⟩ := levelsCount_two h
    have none : ¬ rep.Decides 0 ∧ ¬ rep.Decides 1 := by
      constructor <;> exact fun decides => absurd decides.1 (by decide)
    refine .inl ⟨?_, one, by simp only [decisionRun]; omega⟩
    simp [Nat.count_succ, none, waits]
  | succ n ih =>
    rw [Nat.count_succ]
    rcases levelsCount_succ h n with ⟨decides, enough, count⟩ | ⟨waits, few, count⟩
    · rw [count, if_pos decides]
      refine .inr ⟨by omega, by omega, ?_⟩
      rcases ih with ⟨none, value, early⟩ | ⟨later, bound, run⟩
      · rw [none]
        simp only [decisionRun] at early ⊢
        omega
      · rw [decisionRun_succ _ _ later]
        omega
    · rw [count, if_neg waits, Nat.add_zero]
      rcases ih with ⟨none, value, early⟩ | ⟨later, bound, run⟩
      · refine .inl ⟨none, by omega, ?_⟩
        simp only [decisionRun] at early ⊢
        omega
      · exact .inr ⟨later, by omega, by omega⟩

lemma isDecision_iff (h : rep.Searching) (first : 1 ≤ k) :
    rep.IsDecision k n ↔ n = decisionRun rep.cfg.reserved1 k := by
  have late : 3 ≤ decisionRun rep.cfg.reserved1 k := by
    simp only [decisionRun]
    omega
  constructor
  · rintro ⟨decides, rfl⟩
    match n, decides with
    | 0, decides | 1, decides => exact absurd decides.1 (by decide)
    | 2, decides => exact absurd decides (levelsCount_two h).1
    | n + 3, decides =>
      rcases levelsCount_succ h n with ⟨_, _, zero⟩ | ⟨waits, _⟩
      · have run := timing h (n + 1)
        rw [Nat.count_succ, if_pos decides, zero] at run
        rcases run with ⟨none, _⟩ | ⟨_, _, run⟩
        · omega
        · exact run
      · exact absurd decides waits
  · intro run
    obtain ⟨n, rfl⟩ : ∃ i, n = i + 3 := ⟨n - 3, by omega⟩
    -- the count of decisions up to this run is `k`, and the counter starts again in it
    have now : Nat.count rep.Decides (n + 4) = k ∧ (rep.inRun (n + 3)).currentLevelsCount = 0 := by
      have timed := timing h (n + 1)
      rw [show n + 1 + 3 = n + 4 by omega, show n + 1 + 2 = n + 3 by omega] at timed
      rcases timed with ⟨_, _, early⟩ | ⟨later, bound, here⟩
      · by_cases one : k = 1
        · rw [one] at run
          omega
        · have := decisionRun_mono rep.cfg.reserved1 (le_refl 1) (show 1 < k by omega)
          omega
      · rcases Nat.lt_trichotomy (Nat.count rep.Decides (n + 4)) k with below | same | above
        · have := decisionRun_mono rep.cfg.reserved1 later below
          omega
        · rw [same] at here
          exact ⟨same, by omega⟩
        · have := decisionRun_mono rep.cfg.reserved1 first above
          omega
    rcases levelsCount_succ h n with ⟨decides, _⟩ | ⟨_, _, up⟩
    · refine ⟨decides, ?_⟩
      have count := now.1
      rwa [Nat.count_succ, if_pos decides] at count
    · omega

/-! ## Where the search is -/

lemma inRun_one (h : rep.Searching) : rep.inRun 1 =
    registerSlots rep.slots (newStatement rep.cfg rep.mem rep.query rep.start) := by
  simp [inRun, execSimpleQuery, h.enableME, h.fresh]

lemma count_one (rep : Repetition T) : Nat.count rep.Decides 2 = 0 := by
  have none : ¬ rep.Decides 0 ∧ ¬ rep.Decides 1 := by
    constructor <;> exact fun decides => absurd decides.1 (by decide)
  simp [Nat.count_succ, none]

/-- What holds while a run at a place executes. -/
structure Running (E : Nat) (place : Place) (s : Search T) : Prop where
  here : At E place s.position
  pending : Pending E place s
  best : s.minTotalTime = 0 ∨ Clean E s.bestJITLevels

structure Measured (E : Nat) (place : Place) (s : Search T) : Prop where
  here : At E place s.position
  recorded : Recorded E place s
  best : Clean E s.bestJITLevels
  off : s.useTheBest = false

lemma Running.measured {place : Place} (t : T) (run : Running E place s) (on : cfg.enableME = true) (some : 1 ≤ E) :
    Measured E place (explainOnePlan cfg t s) where
  here := by rw [explainOnePlan_position]; exact run.here
  recorded := explainOnePlan_recorded t on some run.here run.pending
  best := explainOnePlan_best t on run.here.1 run.here.clean run.best
  off := explainOnePlan_useTheBest cfg t s on

omit [LinearOrder T] in
lemma Measured.decided {cfg : Settings} {E : Nat} {place : Place} {s : Search T}
    (run : Measured E place s) (quartet : cfg.enableQuartet = true) (some : 1 ≤ E) :
    Running E (place.next E) (decideLevels cfg (issued s)) := by
  obtain ⟨here, pending⟩ := decideLevels_at (s := issued s) quartet some run.off run.here run.recorded run.best
  refine ⟨here, pending, .inr ?_⟩
  have same := congrArg Kept.bestJITLevels (decideLevels_kept cfg (issued s))
  exact run.best.congr fun i _ => congrFun same i

omit [LinearOrder T] in
lemma Measured.decideLevels_eq {place : Place}
    (run : Measured E place s) (quartet : cfg.enableQuartet = true) (some : 1 ≤ E) :
    decideLevels cfg (issued s) = place.decided E (issued s) :=
  LevelSearch.decideLevels_eq quartet some run.off run.here

omit [LinearOrder T] in
lemma Measured.copies_current {place : Place} (run : Measured E place s) (quartet : cfg.enableQuartet = true)
    (next : place.next E = .lowBest ∨ place.next E = .optBest) (i : Nat) (hi : i < E) :
    (decideLevels cfg (issued s)).currentExprJITLevels i = s.bestCurrentJITLevels i := by
  have count : s.currentExprNum = E := run.here.1
  rw [run.decideLevels_eq quartet (by omega)]
  cases place with
  | low j l =>
    simp only [Place.next] at next
    simp only [Place.decided]
    split_ifs at next ⊢ <;> simp at next
    simp [Search.endSweep, fill, issued, count, hi]
  | opt j =>
    simp only [Place.next] at next
    simp only [Place.decided]
    split_ifs at next ⊢ <;> simp at next
    simp [Search.endOPT3, fill, issued, count, hi]
  | uniform c =>
    simp only [Place.next] at next
    split_ifs at next <;> simp at next
  | start | lowBest | optBest | settled => simp [Place.next] at next

omit [LinearOrder T] in
lemma Measured.copies_best {place : Place} (run : Measured E place s) (quartet : cfg.enableQuartet = true)
    (next : place = .optBest ∨ place = .settled) (i : Nat) (hi : i < E) :
    (decideLevels cfg (issued s)).currentExprJITLevels i = s.bestJITLevels i := by
  have count : s.currentExprNum = E := run.here.1
  rw [run.decideLevels_eq quartet (by omega)]
  rcases next with rfl | rfl <;> simp [Place.decided, Search.settle, fill, issued, count, hi]

/-- **Every run is at the place its number of decisions says.** -/
theorem inRun_running (h : rep.Searching) (quartet : rep.cfg.enableQuartet = true) (some : 1 ≤ rep.slots) (n : Nat) :
    Running rep.slots (placeAt rep.slots (Nat.count rep.Decides (n + 2))) (rep.inRun (n + 1)) := by
  induction n with
  | zero =>
    rw [count_one rep, inRun_one h]
    refine ⟨⟨?_, rfl, rfl, rfl, fun i hi => ?_⟩, ⟨rfl, rfl⟩, .inl rfl⟩
    · simp [Search.position, registerSlots, newStatement]
    · simp [Search.position, registerSlots, newStatement, hi]
  | succ n ih =>
    have run := ih.measured (rep.time (n + 1)) h.enableME some
    change Measured _ _ (rep.afterRun (n + 1)) at run
    rw [Nat.count_succ]
    rcases inRun_cases h n with ⟨zero, waits, eq⟩ | ⟨_, decides, _, eq⟩ | ⟨_, waits, _, eq⟩
    · -- the second run sets every slot to level 0 once more
      subst zero
      rw [count_one rep] at run
      rw [eq, if_neg waits, count_one rep]
      obtain ⟨count, round, slot, no3, vector⟩ := run.here
      refine ⟨⟨count, round, slot, no3, fun i hi => ?_⟩, run.recorded.pending run.off, .inr run.best⟩
      simp only [Search.position] at count ⊢
      simp [fill, count, hi, allAt]
    · rw [eq, if_pos decides]
      exact run.decided quartet some
    · rw [eq, if_neg waits]
      exact ⟨run.here, run.recorded.pending run.off, .inr run.best⟩

lemma IsDecision.step (h : rep.Searching) (quartet : rep.cfg.enableQuartet = true)
    (some : 1 ≤ rep.slots) (decision : rep.IsDecision k n) :
    Running rep.slots (placeAt rep.slots k) (rep.inRun n) ∧
      Measured rep.slots (placeAt rep.slots (k - 1)) (rep.afterRun (n - 1)) ∧
      rep.inRun n = decideLevels rep.cfg (issued (rep.afterRun (n - 1))) := by
  obtain ⟨decides, rfl⟩ := decision
  obtain ⟨m, rfl⟩ : ∃ m, n = m + 2 := ⟨n - 2, by have := decides.1; omega⟩
  have before := (inRun_running h quartet some m).measured (rep.time (m + 1)) h.enableME some
  have now := inRun_running h quartet some (m + 1)
  rw [show m + 1 + 2 = (m + 2) + 1 by omega, Nat.count_succ, if_pos decides] at now
  refine ⟨now, before, ?_⟩
  rcases inRun_cases h m with ⟨_, waits, _⟩ | ⟨_, _, _, eq⟩ | ⟨_, waits, _⟩
  · exact absurd decides waits
  · exact eq
  · exact absurd decides waits

lemma inRun_waits (h : rep.Searching) (n : Nat) (waits : ¬ rep.Decides (n + 2)) (i : Nat)
    (hi : i < rep.slots) : (rep.inRun (n + 2)).currentExprJITLevels i = (rep.inRun (n + 1)).currentExprJITLevels i := by
  have same := congrFun (congrArg Position.currentExprJITLevels (rep.afterRun_position (n + 1))) i
  rcases inRun_cases h n with ⟨rfl, _, eq⟩ | ⟨_, decides, _⟩ | ⟨_, _, _, eq⟩
  · have count := congrArg Position.currentExprNum (rep.afterRun_position 1)
    simp only [Search.position, inRun_one h, registerSlots, newStatement, Nat.zero_add] at count
    rw [eq, inRun_one h]
    simp [fill, count, hi, allAt, registerSlots, newStatement]
  · exact absurd decides waits
  · rw [eq]
    exact same

end Repetition

end Hex.Kernel.LevelSearch
