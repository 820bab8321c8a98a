/-
# Kernel.LevelOutcome — what a repeated statement ends up with

* `exploration_schedule`: the runs of the search and the vector of each;
* `search_settles`: in the end the vector of the earliest fastest run is used;
* `levels_never_mixed`: level 3 never stands beside level 1 or 2;
* `levels_computed_iff`: every level in use was computed by the search exactly
  when the three uniform runs are made. Without them nothing is recorded for
  any slot, and the local best that is put to use is memory nobody wrote.
-/
import Mathlib.Algebra.GroupWithZero.Nat
import Hex.Kernel.LevelRun
import Hex.Theory.RunningMin

namespace Hex.Kernel.LevelSearch

namespace Repetition

open Theory.RunningMin

variable {T : Type} [Zero T] [LinearOrder T] {rep : Repetition T}

/-- Every vector is used for one run, and every run takes the time one. -/
def steady (quartet : Bool) (slots : Nat) : Repetition Nat where
  cfg := { enableME := true, testME := false, enableQuartet := quartet,
           enableExprCount := true, reserved1 := 0 }
  mem := { currentExprJITLevels := fun _ => 7, bestJITLevels := fun _ => 7,
           bestCurrentJITLevels := fun _ => 7 }
  query := "explain analyze select 1"
  start := { currentStatement := none, minTotalTime := 0, minExprTime := 0, reserved2 := 0,
             reserved3 := 0, enableOPT3 := false, useTheBest := false, countExpr := false,
             currentExprNum := 0, currentExprJITLevels := fun _ => unwritten 0,
             bestJITLevels := fun _ => unwritten 0, bestCurrentJITLevels := fun _ => unwritten 0,
             currentStatementExecNum := 0, currentLevelsCount := 0 }
  slots := slots
  time := fun _ => 1

lemma steady_searching (quartet : Bool) (slots : Nat) : (steady quartet slots).Searching :=
  ⟨rfl, rfl, rfl⟩

/-! ## The schedule -/

/-- **The schedule of the search.** -/
theorem exploration_schedule (rep : Repetition T) (searching : rep.Searching)
    (quartet : rep.cfg.enableQuartet = true) (some : 1 ≤ rep.slots) :
    (∀ k n, 1 ≤ k → (rep.IsDecision k n ↔ n = max rep.cfg.reserved1 1 + 2 + (k - 1) * (rep.cfg.reserved1 + 1))) ∧
    (∀ k n, rep.IsDecision k n → (k = 1 → ∀ i, i < rep.slots → (rep.inRun n).currentExprJITLevels i = stored 1) ∧
      (k = 2 → ∀ i, i < rep.slots → (rep.inRun n).currentExprJITLevels i = stored 2) ∧
      (k = 3 → ∀ i, i < rep.slots → (rep.inRun n).currentExprJITLevels i = stored 0) ∧
      (∀ j, j < rep.slots → k = 4 + 2 * j → Single rep.slots j 1 (rep.inRun n).currentExprJITLevels) ∧
      (∀ j, j < rep.slots → k = 5 + 2 * j → Single rep.slots j 2 (rep.inRun n).currentExprJITLevels) ∧
      (k = 4 + 2 * rep.slots → ∀ i, i < rep.slots → (rep.inRun n).currentExprJITLevels i =
        (rep.afterRun (n - 1)).bestCurrentJITLevels i) ∧
      (∀ j, j < rep.slots → k = 5 + 2 * rep.slots + j → Single rep.slots j 3 (rep.inRun n).currentExprJITLevels) ∧
      (k = 5 + 3 * rep.slots → ∀ i, i < rep.slots → (rep.inRun n).currentExprJITLevels i =
        (rep.afterRun (n - 1)).bestCurrentJITLevels i)) ∧
    (∀ n, 2 ≤ n → ¬ rep.Decides n → ∀ i, i < rep.slots →
      (rep.inRun n).currentExprJITLevels i = (rep.inRun (n - 1)).currentExprJITLevels i) := by
  refine ⟨fun k n first => isDecision_iff searching first, ?_, ?_⟩
  · intro k n decision
    obtain ⟨now, before, eq⟩ := decision.step searching quartet some
    have here := now.here.2
    refine ⟨?_, ?_, ?_, ?_, ?_, ?_, ?_, ?_⟩
    · rintro rfl
      exact here.2.2.2.2.2
    · rintro rfl
      exact here.2.2.2.2.2
    · rintro rfl
      exact here.2.2.2.2.2
    · rintro j inside rfl
      rw [(placeAt_low _ some j inside).1] at here
      exact here.2.2.2.2.2
    · rintro j inside rfl
      rw [(placeAt_low _ some j inside).2] at here
      exact here.2.2.2.2.2
    · rintro rfl i hi
      rw [eq]
      refine before.copies_current quartet (.inl ?_) i hi
      rw [next_placeAt rep.slots (by omega), placeAt_lowBest rep.slots some]
    · rintro j inside rfl
      rw [placeAt_opt _ some j inside] at here
      exact here.2.2.2.2
    · rintro rfl i hi
      rw [eq]
      refine before.copies_current quartet (.inr ?_) i hi
      rw [next_placeAt rep.slots (by omega), placeAt_optBest rep.slots some]
  · intro n late waits i hi
    obtain ⟨n, rfl⟩ : ∃ m, n = m + 2 := ⟨n - 2, by omega⟩
    exact inRun_waits searching n waits i hi

/-- The ninth decision of a search over two slots comes in run 11 and tries
level 3 in the first slot. -/
theorem exploration_schedule_steady : (steady true 2).Searching ∧ (steady true 2).IsDecision 9 11 ∧
      ((steady true 2).inRun 11).currentExprJITLevels 0 = stored 3 ∧
      ((steady true 2).inRun 11).currentExprJITLevels 1 = stored 0 := by
  have schedule :=
    exploration_schedule (steady true 2) (steady_searching true 2) rfl (by decide)
  have decision : (steady true 2).IsDecision 9 11 := (schedule.1 9 11 (by decide)).2 rfl
  have single := (schedule.2.1 9 11 decision).2.2.2.2.2.2.1 0 (by decide) rfl
  exact ⟨steady_searching true 2, decision, single 0 (by decide), single 1 (by decide)⟩

/-! ## The end of the search -/

lemma inRun_exprNum (h : rep.Searching) (n : Nat) : (rep.inRun (n + 1)).currentExprNum = rep.slots := by
  induction n with
  | zero => simp [inRun_one h, registerSlots, newStatement]
  | succ n ih =>
    rw [(inRun_kept h n).1, ← ih]
    exact congrArg Position.currentExprNum (rep.afterRun_position (n + 1))

lemma afterRun_taken (h : rep.Searching) (n : Nat) (taken : (rep.inRun (n + 1)).minTotalTime = 0 ∨
      rep.time (n + 1) < (rep.inRun (n + 1)).minTotalTime) :
    (rep.afterRun (n + 1)).minTotalTime = rep.time (n + 1) ∧
      ∀ i, i < rep.slots → (rep.afterRun (n + 1)).bestJITLevels i = (rep.inRun (n + 1)).currentExprJITLevels i := by
  have count := inRun_exprNum h n
  rw [afterRun, explainOnePlan_minTotalTime _ _ h.enableME,
    explainOnePlan_bestJITLevels _ _ h.enableME, recordTotal, if_pos taken]
  exact ⟨rfl, fun i hi => by simp [fill, count, hi]⟩

lemma afterRun_skipped (h : rep.Searching) (n : Nat) (skipped : ¬ ((rep.inRun (n + 1)).minTotalTime = 0 ∨
      rep.time (n + 1) < (rep.inRun (n + 1)).minTotalTime)) :
    (rep.afterRun (n + 1)).minTotalTime = (rep.inRun (n + 1)).minTotalTime ∧
      (rep.afterRun (n + 1)).bestJITLevels = (rep.inRun (n + 1)).bestJITLevels := by
  rw [afterRun, explainOnePlan_minTotalTime _ _ h.enableME,
    explainOnePlan_bestJITLevels _ _ h.enableME, recordTotal, if_neg skipped]
  exact ⟨rfl, rfl⟩

/-- **The global best is the vector of the earliest fastest run.** -/
theorem best_earliest (h : rep.Searching) (positive : ∀ n, 1 ≤ n → 0 < rep.time n) (n : Nat) :
    ∃ m, Earliest rep.time (n + 1) m ∧ (rep.afterRun (n + 1)).minTotalTime = rep.time m ∧
      ∀ i, i < rep.slots → (rep.afterRun (n + 1)).bestJITLevels i = (rep.inRun m).currentExprJITLevels i := by
  induction n with
  | zero =>
    have first : (rep.inRun 1).minTotalTime = 0 := by
      rw [inRun_one h]
      rfl
    exact ⟨1, earliest_one rep.time, afterRun_taken h 0 (.inl first)⟩
  | succ n ih =>
    obtain ⟨m, earliest, least, vector⟩ := ih
    obtain ⟨_, time, best⟩ := inRun_kept h n
    rw [least] at time
    by_cases faster : rep.time (n + 2) < rep.time m
    · exact ⟨n + 2, earliest.replace faster,
        afterRun_taken h (n + 1) (.inr (by rwa [time]))⟩
    · -- no time is zero, so the record is not taken for an empty one
      have nonzero : rep.time m ≠ 0 := (positive m earliest.one_le).ne'
      obtain ⟨keepTime, keepBest⟩ := afterRun_skipped h (n + 1) (by
        rw [time]
        rintro (zero | less)
        · exact nonzero zero
        · exact faster less)
      refine ⟨m, earliest.keep faster, keepTime.trans time, fun i hi => ?_⟩
      rw [keepBest, best]
      exact vector i hi

lemma count_mono {k n later : Nat} (decision : rep.IsDecision k n) (le : n ≤ later) :
    k ≤ Nat.count rep.Decides (later + 1) := by
  obtain ⟨decides, rfl⟩ := decision
  calc Nat.count rep.Decides n + 1 = Nat.count rep.Decides (n + 1) := by
        rw [Nat.count_succ, if_pos decides]
    _ ≤ Nat.count rep.Decides (later + 1) := Nat.count_monotone _ (by omega)

/-- **The search settles**: from decision `3E + 6` on, every decision uses the
vector of the earliest fastest run so far, and the slot and the mode of the
search no longer change. -/
theorem search_settles (rep : Repetition T) (searching : rep.Searching)
    (quartet : rep.cfg.enableQuartet = true) (some : 1 ≤ rep.slots)
    (positive : ∀ n, 1 ≤ n → 0 < rep.time n) (k : Nat) (late : 3 * rep.slots + 6 ≤ k) :
    (∃ n, rep.IsDecision k n) ∧
    ∀ n, rep.IsDecision k n → (∃ m, Earliest rep.time (n - 1) m ∧ ∀ i, i < rep.slots →
        (rep.inRun n).currentExprJITLevels i = (rep.inRun m).currentExprJITLevels i) ∧
      ∀ later, n ≤ later → (rep.inRun later).reserved2 = rep.slots ∧ (rep.inRun later).enableOPT3 = false ∧
        (rep.afterRun later).reserved2 = rep.slots ∧ (rep.afterRun later).enableOPT3 = false := by
  refine ⟨⟨_, (isDecision_iff searching (by omega)).mpr rfl⟩, fun n decision => ⟨?_, ?_⟩⟩
  · obtain ⟨_, before, eq⟩ := decision.step searching quartet some
    have past : placeAt rep.slots (k - 1) = .optBest ∨ placeAt rep.slots (k - 1) = .settled := by
      by_cases first : k = 3 * rep.slots + 6
      · left
        rw [show k - 1 = 5 + 3 * rep.slots by omega]
        exact placeAt_optBest rep.slots some
      · right
        exact placeAt_settled rep.slots some (k - 1) (by omega)
    obtain ⟨n, rfl⟩ : ∃ m, n = m + 2 := ⟨n - 2, by have := decision.1.1; omega⟩
    obtain ⟨m, earliest, _, vector⟩ := best_earliest searching positive n
    refine ⟨m, earliest, fun i hi => ?_⟩
    rw [eq, before.copies_best quartet past i hi]
    exact vector i hi
  · intro later le
    have count := count_mono decision le
    have some_run : 1 ≤ later := by have := decision.1.1; omega
    obtain ⟨later, rfl⟩ : ∃ m, later = m + 1 := ⟨later - 1, by omega⟩
    have here := (inRun_running searching quartet some later).here
    rw [placeAt_settled rep.slots some _ (le_trans (by omega) count)] at here
    obtain ⟨_, _, slot, no3, _⟩ := here
    have same := rep.afterRun_position (later + 1)
    exact ⟨slot, no3, (congrArg Position.reserved2 same).trans slot,
      (congrArg Position.enableOPT3 same).trans no3⟩

theorem search_settles_steady : (∀ n, 1 ≤ n → 0 < (steady true 2).time n) ∧ ∃ n, (steady true 2).IsDecision 12 n :=
  ⟨fun _ _ => Nat.one_pos, (search_settles (steady true 2) (steady_searching true 2) rfl
    (by decide) (fun _ _ => Nat.one_pos) 12 (by decide)).1⟩

/-! ## The vectors in use -/

/-- **Level 3 never stands beside level 1 or 2.** -/
theorem levels_never_mixed (rep : Repetition T) (searching : rep.Searching)
    (quartet : rep.cfg.enableQuartet = true) (some : 1 ≤ rep.slots) (n : Nat) (run : 1 ≤ n)
    (i j : Nat) (hi : i < rep.slots) (hj : j < rep.slots) (three : ((rep.inRun n).currentExprJITLevels i).level = 3) :
    ((rep.inRun n).currentExprJITLevels j).level ≠ 1 ∧ ((rep.inRun n).currentExprJITLevels j).level ≠ 2 := by
  obtain ⟨n, rfl⟩ : ∃ m, n = m + 1 := ⟨n - 1, by omega⟩
  exact (inRun_running searching quartet some n).here.clean.unmixed i j hi hj three

theorem levels_never_mixed_steady : (((steady true 2).inRun 11).currentExprJITLevels 0).level = 3 ∧
      (((steady true 2).inRun 11).currentExprJITLevels 1).level ≠ 1 ∧
      (((steady true 2).inRun 11).currentExprJITLevels 1).level ≠ 2 := by
  have on := steady_searching true 2
  have decision : (steady true 2).IsDecision 9 11 := (isDecision_iff on (by decide)).mpr rfl
  have here := (decision.step on rfl (by decide)).1.here.2
  have three : (((steady true 2).inRun 11).currentExprJITLevels 0).level = 3 :=
    congrArg LevelCell.level (here.2.2.2.2 0 (by decide))
  exact ⟨three, levels_never_mixed (steady true 2) on rfl (by decide) 11 (by decide) 0 1 (by decide) (by decide) three⟩

/-! ## The search without the uniform runs

`reserved3` stays 0, so that `recordExpr` never records a slot. -/

/-- The state of a search without uniform runs after `k` decisions, `k ≤ 2E`. -/
structure Plain (mem : Malloc) (E k : Nat) (s : Search T) : Prop where
  count : s.currentExprNum = E
  round : s.reserved3 = 0
  no3 : s.enableOPT3 = false
  off : s.useTheBest = false
  best : ∀ i, s.bestCurrentJITLevels i = unwritten (mem.bestCurrentJITLevels i)
  vector : (k = 0 ∧ s.reserved2 = 0 ∧ ∀ i, i < E → s.currentExprJITLevels i = stored 0) ∨
    ∃ j l : Nat, j < E ∧ (l = 1 ∨ l = 2) ∧ k = 2 * j + l ∧ s.reserved2 = j ∧ Single E j l s.currentExprJITLevels

lemma Plain.measured (cfg : Settings) {mem : Malloc} {E k : Nat} {s : Search T} (t : T)
    (plain : Plain mem E k s) : Plain mem E k (explainOnePlan cfg t s) := by
  have early : ¬ 3 ≤ (recordTotal t s).reserved3 := by
    have same := congrArg Position.reserved3 (recordTotal_position t s)
    simp only [Search.position, plain.round] at same
    omega
  have records : recordTotal t s = { s with
      minTotalTime := (recordTotal t s).minTotalTime
      bestJITLevels := (recordTotal t s).bestJITLevels } := by
    unfold recordTotal
    split_ifs <;> rfl
  have off : (recordTotal t s).useTheBest = false := by
    rw [records]
    exact plain.off
  unfold explainOnePlan
  split_ifs
  · rw [recordExpr, if_neg (by simp [off]), if_neg (fun h => early h.1), records]
    exact ⟨plain.count, plain.round, plain.no3, plain.off, plain.best, plain.vector⟩
  · exact plain

omit [LinearOrder T] in
/-- A decision before the end of the sweep moves on by one. -/
lemma Plain.decided {cfg : Settings} {mem : Malloc} {E k : Nat} {s : Search T}
    (plain : Plain mem E k s) (quartet : cfg.enableQuartet = false) (more : k < 2 * E) :
    Plain mem E (k + 1) (decideLevels cfg s) := by
  obtain ⟨count, round, no3, off, best, vector⟩ := plain
  have late : ¬ (cfg.enableQuartet = true ∧ s.reserved3 < 3) := by simp [quartet]
  rcases vector with ⟨rfl, slot, zero⟩ | ⟨j, l, inside, level, rfl, slot, single⟩
  · have first : s.currentExprJITLevels s.reserved2 = stored 0 := by
      rw [slot]
      exact zero 0 (by omega)
    rw [decideLevels_sweep_bump cfg s late (by omega) no3 off (by rw [first]; decide)]
    refine ⟨count, round, no3, off, best, .inr ⟨0, 1, by omega, .inl rfl, rfl, slot, ?_⟩⟩
    intro i hi
    simp only [Search.raiseSlot, first]
    simp only [slot, Function.update_apply]
    split_ifs
    · rfl
    · exact zero i hi
  · have self : s.currentExprJITLevels s.reserved2 = stored l := by
      rw [slot, single j inside, if_pos rfl]
    rcases level with rfl | rfl
    · rw [decideLevels_sweep_bump cfg s late (by omega) no3 off (by rw [self]; decide)]
      refine ⟨count, round, no3, off, best, .inr ⟨j, 2, inside, .inr rfl, rfl, slot, ?_⟩⟩
      intro i hi
      simp only [Search.raiseSlot, self]
      simp only [slot, Function.update_apply]
      split_ifs with same
      · rfl
      · rw [single i hi, if_neg same]
    · rw [decideLevels_sweep_carry cfg s late (by omega) no3 (by rw [self]; rfl) (by omega)]
      refine ⟨count, round, no3, rfl, best,
        .inr ⟨j + 1, 1, by omega, .inl rfl, by omega, by simp [Search.nextSlot, slot], ?_⟩⟩
      intro i hi
      simp only [Search.nextSlot, slot, Function.update_apply]
      rw [single (j + 1) (by omega), single i hi]
      split_ifs <;> rfl

omit [LinearOrder T] in
/-- The decision at the end of the sweep uses the local best, which was never
written. -/
lemma Plain.reads_unwritten {cfg : Settings} {mem : Malloc} {E : Nat} {s : Search T}
    (plain : Plain mem E (2 * E) s) (quartet : cfg.enableQuartet = false) (i : Nat) (hi : i < E) :
    (decideLevels cfg s).currentExprJITLevels i = unwritten (mem.bestCurrentJITLevels i) := by
  obtain ⟨count, round, no3, off, best, vector⟩ := plain
  rcases vector with ⟨none, _⟩ | ⟨j, l, inside, level, last, slot, single⟩
  · omega
  · have two : l = 2 ∧ E = j + 1 := by omega
    obtain ⟨rfl, rfl⟩ := two
    have full : (s.currentExprJITLevels s.reserved2).level = 2 := by
      rw [slot, single j inside, if_pos rfl]
      rfl
    rw [decideLevels_sweep_done cfg s (by simp [quartet]) (by omega) no3 full (by omega)]
    simp [Search.endSweep, fill, count, hi, best]

lemma inRun_plain (h : rep.Searching) (quartet : rep.cfg.enableQuartet = false) (n : Nat)
    (early : Nat.count rep.Decides (n + 2) ≤ 2 * rep.slots) :
    Plain rep.mem rep.slots (Nat.count rep.Decides (n + 2)) (rep.inRun (n + 1)) := by
  induction n with
  | zero =>
    rw [count_one rep, inRun_one h]
    refine ⟨?_, rfl, rfl, rfl, fun i => rfl, .inl ⟨rfl, rfl, fun i hi => ?_⟩⟩
    · simp [registerSlots, newStatement]
    · simp [registerSlots, newStatement, hi]
  | succ n ih =>
    rw [Nat.count_succ] at early ⊢
    have run := (ih (by omega)).measured rep.cfg (rep.time (n + 1))
    change Plain _ _ _ (rep.afterRun (n + 1)) at run
    obtain ⟨count, round, no3, off, best, vector⟩ := run
    rcases inRun_cases h n with ⟨rfl, waits, eq⟩ | ⟨_, decides, _, eq⟩ | ⟨_, waits, _, eq⟩
    · rw [count_one rep] at vector ⊢
      rw [eq, if_neg waits]
      refine ⟨count, round, no3, off, best, .inl ?_⟩
      rcases vector with ⟨_, slot, _⟩ | ⟨j, l, _, level, sum, _⟩
      · exact ⟨rfl, slot, fun i hi => by simp [fill, count, hi, allAt]⟩
      · omega
    · rw [eq, if_pos decides]
      rw [if_pos decides] at early
      exact Plain.decided (s := issued (rep.afterRun (n + 1))) ⟨count, round, no3, off, best, vector⟩ quartet (by omega)
    · rw [eq, if_neg waits]
      exact ⟨count, round, no3, off, best, vector⟩

lemma decision_reads_unwritten (h : rep.Searching) (quartet : rep.cfg.enableQuartet = false)
    {n : Nat} (decision : rep.IsDecision (2 * rep.slots + 1) n) (i : Nat) (hi : i < rep.slots) :
    (rep.inRun n).currentExprJITLevels i = unwritten (rep.mem.bestCurrentJITLevels i) := by
  obtain ⟨decides, number⟩ := decision
  obtain ⟨m, rfl⟩ : ∃ m, n = m + 2 := ⟨n - 2, by have := decides.1; omega⟩
  have plain := (inRun_plain h quartet m (by omega)).measured rep.cfg (rep.time (m + 1))
  rw [show Nat.count rep.Decides (m + 2) = 2 * rep.slots by omega] at plain
  rcases inRun_cases h m with ⟨_, waits, _⟩ | ⟨_, _, _, eq⟩ | ⟨_, waits, _⟩
  · exact absurd decides waits
  · rw [eq]
    exact Plain.reads_unwritten (s := issued (rep.afterRun (m + 1)))
      ⟨plain.count, plain.round, plain.no3, plain.off, plain.best, plain.vector⟩ quartet i hi
  · exact absurd decides waits

/-- **Which searches use computed levels only.** -/
theorem levels_computed_iff (rep : Repetition T) (searching : rep.Searching) :
    (∀ n i, 1 ≤ n → i < rep.slots → ((rep.inRun n).currentExprJITLevels i).Computed) ↔
      (rep.cfg.enableQuartet = true ∨ rep.slots = 0) := by
  constructor
  · intro computed
    by_contra neither
    obtain ⟨plain, some⟩ := not_or.mp neither
    have decision : rep.IsDecision (2 * rep.slots + 1) (decisionRun rep.cfg.reserved1 (2 * rep.slots + 1)) :=
      (isDecision_iff searching (by omega)).mpr rfl
    have first := decision_reads_unwritten searching (by simpa using plain) decision 0 (by omega)
    have run := decision.1.1
    have written := (computed _ 0 (Nat.le_of_succ_le run) (by omega)).1
    rw [first] at written
    cases written
  · rintro (quartet | none) n i run hi
    · obtain ⟨n, rfl⟩ : ∃ m, n = m + 1 := ⟨n - 1, by omega⟩
      exact (inRun_running searching quartet (by omega) n).here.clean.computed i hi
    · omega

theorem levels_computed_iff_steady :
    (steady true 2).Searching ∧ (((steady true 2).inRun 11).currentExprJITLevels 1).Computed :=
  ⟨steady_searching true 2,
    (levels_computed_iff (steady true 2) (steady_searching true 2)).mpr (.inl rfl) 11 1 (by decide) (by decide)⟩

/-- One slot without the uniform runs: the fifth run uses the 7 that `malloc`
left in `bestCurrentJITLevels`. -/
theorem unwritten_level_used : (steady false 1).Searching ∧ (∀ n, 0 < (steady false 1).time n) ∧
      ((steady false 1).inRun 5).currentExprJITLevels 0 = unwritten 7 ∧
      ¬ (((steady false 1).inRun 5).currentExprJITLevels 0).Computed := by
  have on := steady_searching false 1
  have decision : (steady false 1).IsDecision 3 5 := (isDecision_iff on (by decide)).mpr rfl
  have used : ((steady false 1).inRun 5).currentExprJITLevels 0 = unwritten 7 :=
    decision_reads_unwritten on rfl decision 0 (by decide)
  refine ⟨on, fun _ => Nat.one_pos, used, ?_⟩
  rw [used]
  rintro ⟨written, _⟩
  cases written

end Repetition

end Hex.Kernel.LevelSearch
