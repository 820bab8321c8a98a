/-
# Kernel.LevelSweep — what the sweeps record for a slot

`ExplainOnePlan` keeps `min_expr_time` and an entry of `bestCurrentJITLevels` for the
slot that is varied, and `exec_simple_query` resets `min_expr_time` when it moves
on to the next slot (`Measured.decided_record`).

* `best_unrecorded_iff`: a run of a best vector is kept out of the record by
  `useTheBest`, and the first measurement clears that flag. So the record is left
  alone exactly when no vector is repeated.
* `sweeps_fastest_iff`: the run with every slot at 0 is recorded for the first slot
  only. The reset then makes the first trial of any other slot the best so far,
  and the sweep with level 3 has no other trial than level 3.
-/
import Hex.Kernel.LevelOutcome

namespace Hex.Kernel.LevelSearch

/-! ## What a measurement does to the record of the slot -/

section Measure

variable {T : Type} [Zero T] [LinearOrder T] {cfg : Settings} {t : T} {s : Search T}

lemma explainOnePlan_slot (t : T) (s : Search T) (on : cfg.enableME = true) :
    (explainOnePlan cfg t s).minExprTime = (recordExpr t s).minExprTime ∧
      (explainOnePlan cfg t s).bestCurrentJITLevels = (recordExpr t s).bestCurrentJITLevels := by
  simp only [explainOnePlan, on, if_true]
  unfold recordTotal
  split_ifs with taken
  · unfold recordExpr
    split_ifs <;> exact ⟨rfl, rfl⟩
  · exact ⟨rfl, rfl⟩

lemma recordExpr_useTheBest (best : s.useTheBest = true) :
    recordExpr t s = { s with useTheBest := false } := if_pos best

lemma recordExpr_taken (off : s.useTheBest = false) (round : 3 ≤ s.reserved3)
    (taken : s.minExprTime = 0 ∨ t < s.minExprTime) :
    recordExpr t s = if s.enableOPT3 then keepOPT3 (recordSlot t s) else recordSlot t s := by
  unfold recordExpr
  rw [if_neg (by simp [off]), if_pos ⟨round, taken⟩]

lemma recordExpr_skipped (off : s.useTheBest = false)
    (skipped : ¬ (s.minExprTime = 0 ∨ t < s.minExprTime)) : recordExpr t s = s := by
  unfold recordExpr
  rw [if_neg (by simp [off]), if_neg fun taken => skipped taken.2]

end Measure

/-! ## What a decision does to it -/

def Place.isBest : Place → Bool
  | .lowBest | .optBest | .settled => true
  | _ => false

def Place.lastTrial : Place → Bool
  | .low _ l => l == 2
  | .opt _ => true
  | _ => false

section Decide

variable {T : Type} [Zero T]

/-- A decision leaves the levels of the slots as they are. -/
lemma decideLevels_bestCurrent (cfg : Settings) (s : Search T) :
    (decideLevels cfg s).bestCurrentJITLevels = s.bestCurrentJITLevels := by
  have applied : ∀ s : Search T, (applyBest s).bestCurrentJITLevels = s.bestCurrentJITLevels := by
    intro s
    unfold applyBest
    split_ifs <;> rfl
  show (applyBest (chooseLevels cfg s)).bestCurrentJITLevels = _
  rw [applied]
  unfold chooseLevels
  split_ifs
  · rfl
  · rfl
  · unfold sweepOPT3
    dsimp only
    split_ifs <;> rfl
  · unfold sweep
    dsimp only
    split_ifs <;> rfl

/-- **A decision** puts a best vector to use where the walk says so, and resets the
time of the slot behind its last trial. -/
theorem Repetition.Measured.decided_record {cfg : Settings} {E : Nat} {place : Place} {s : Search T}
    (run : Repetition.Measured E place s) (quartet : cfg.enableQuartet = true) (some : 1 ≤ E) :
    (decideLevels cfg (issued s)).useTheBest = (place.next E).isBest ∧ (decideLevels cfg (issued s)).minExprTime =
        if place.lastTrial then 0 else s.minExprTime := by
  have off : (issued s).useTheBest = false := run.off
  rw [run.decideLevels_eq quartet some]
  cases place with
  | start | lowBest => exact ⟨off, rfl⟩
  | uniform c =>
    simp only [Place.decided, Place.next, Place.lastTrial, Bool.false_eq_true, if_false]
    split_ifs <;> exact ⟨off, rfl⟩
  | low j l =>
    obtain ⟨_, _, level, _⟩ := run.here
    rcases level with rfl | rfl
    · exact ⟨off, rfl⟩
    · simp only [Place.decided, Place.next, Place.lastTrial, lt_irrefl, BEq.rfl, if_true, if_false]
      split_ifs <;> exact ⟨rfl, rfl⟩
  | opt j =>
    simp only [Place.decided, Place.next, Place.lastTrial, if_true]
    split_ifs <;> exact ⟨rfl, rfl⟩
  | optBest | settled => exact ⟨rfl, rfl⟩

end Decide

namespace Repetition

open Theory.RunningMin

variable {T : Type} [Zero T] [LinearOrder T] {rep : Repetition T} {n j i : Nat} {tried : List (LevelCell × T)}

/-! ## The runs of a best vector -/

/-- Run `n` executes a vector that was chosen by `useTheBest`: it is the deciding run
or one of its repetitions. -/
def ExecutesBest (rep : Repetition T) (n : Nat) : Prop :=
  ∃ d, d ≤ n ∧ rep.Decides d ∧ (∀ m, d < m → m ≤ n → ¬ rep.Decides m) ∧ (rep.inRun d).useTheBest = true

/-- Run `n` changes neither `min_expr_time` nor an entry of `bestCurrentJITLevels`, from
the state behind its decision on: the decision itself resets `min_expr_time`. -/
def Unrecorded (rep : Repetition T) (n : Nat) : Prop :=
  (rep.afterRun n).minExprTime = (rep.inRun n).minExprTime ∧
    ∀ i, (rep.afterRun n).bestCurrentJITLevels i = (rep.inRun n).bestCurrentJITLevels i

lemma unrecorded_of_useTheBest (h : rep.Searching) (best : (rep.inRun n).useTheBest = true) : rep.Unrecorded n := by
  obtain ⟨time, levels⟩ := explainOnePlan_slot (rep.time n) (rep.inRun n) h.enableME
  rw [recordExpr_useTheBest best] at time levels
  exact ⟨time, congrFun levels⟩

lemma decisionRun_zero {k : Nat} (first : 1 ≤ k) : decisionRun 0 k = k + 2 := by
  simp only [decisionRun]
  omega

lemma isDecision_single (h : rep.Searching) (single : rep.cfg.reserved1 = 0) {k : Nat}
    (first : 1 ≤ k) : rep.IsDecision k (k + 2) := by
  rw [isDecision_iff h first, single, decisionRun_zero first]

lemma unrecorded_of_single (h : rep.Searching) (single : rep.cfg.reserved1 = 0)
    (executes : rep.ExecutesBest n) : rep.Unrecorded n := by
  obtain ⟨d, le, decides, waits, best⟩ := executes
  obtain below | rfl := Nat.lt_or_eq_of_le le
  · have late : 2 ≤ d := decides.1
    have next := (isDecision_single h single (k := n - 2) (by omega)).1
    rw [show n - 2 + 2 = n by omega] at next
    exact absurd next (waits n below (Nat.le_refl n))
  · exact unrecorded_of_useTheBest h best

/-- What the decision for the local best of the first sweep leaves. -/
lemma lowBest_decision (h : rep.Searching) (quartet : rep.cfg.enableQuartet = true)
    (some : 1 ≤ rep.slots) {d : Nat} (decision : rep.IsDecision (4 + 2 * rep.slots) d) :
    Running rep.slots .lowBest (rep.inRun d) ∧ (rep.inRun d).useTheBest = true ∧ (rep.inRun d).minExprTime = 0 := by
  obtain ⟨now, before, eq⟩ := decision.step h quartet some
  have place : placeAt rep.slots (4 + 2 * rep.slots - 1) = .low (rep.slots - 1) 2 := by
    obtain ⟨_, low⟩ := placeAt_low rep.slots some (rep.slots - 1) (by omega)
    rw [← low]
    congr 1
    omega
  rw [placeAt_lowBest rep.slots some] at now
  rw [place] at before
  obtain ⟨best, time⟩ := before.decided_record quartet some
  rw [eq]
  refine ⟨eq ▸ now, best.trans ?_, time⟩
  have last : ¬ rep.slots - 1 + 1 < rep.slots := by omega
  simp [Place.next, last, Place.isBest]

/-- **A repetition of the local best is recorded** for the first slot. -/
theorem exists_recorded (h : rep.Searching) (quartet : rep.cfg.enableQuartet = true)
    (some : 1 ≤ rep.slots) (positive : ∀ n, 1 ≤ n → 0 < rep.time n)
    (repeats : rep.cfg.reserved1 ≠ 0) : ∃ n, rep.ExecutesBest n ∧ ¬ rep.Unrecorded n := by
  have decision : rep.IsDecision (4 + 2 * rep.slots) (decisionRun rep.cfg.reserved1 (4 + 2 * rep.slots)) :=
    (isDecision_iff h (by omega)).mpr rfl
  generalize run : decisionRun rep.cfg.reserved1 (4 + 2 * rep.slots) = d at decision
  obtain ⟨now, best, zero⟩ := lowBest_decision h quartet some decision
  obtain ⟨m, rfl⟩ : ∃ m, d = m + 2 := ⟨d - 2, by have := decision.1.1; omega⟩
  -- the next decision is at least two runs away
  have waits : ¬ rep.Decides (m + 3) := by
    intro decides
    have next := (isDecision_iff h (k := Nat.count rep.Decides (m + 3) + 1) (by omega)).mp ⟨decides, rfl⟩
    rw [Nat.count_succ, if_pos decision.1, decision.2,
      decisionRun_succ _ _ (by omega), run] at next
    omega
  have executes : rep.ExecutesBest (m + 3) := by
    refine ⟨m + 2, by omega, decision.1, fun k above below => ?_, best⟩
    rwa [show k = m + 3 by omega]
  refine ⟨m + 3, executes, fun unrecorded => ?_⟩
  obtain ⟨same, _⟩ := unrecorded_of_useTheBest h best
  rcases inRun_cases h (m + 1) with ⟨none, _⟩ | ⟨_, decides, _⟩ | ⟨_, _, _, eq⟩
  · omega
  · exact absurd decides waits
  · have time : (rep.inRun (m + 3)).minExprTime = 0 := by
      rw [eq]
      exact same.trans zero
    have off : (rep.inRun (m + 3)).useTheBest = false := by
      rw [eq]
      exact explainOnePlan_useTheBest _ _ _ h.enableME
    have round : (rep.inRun (m + 3)).reserved3 = 3 := by
      rw [eq]
      exact (congrArg Position.reserved3 (rep.afterRun_position (m + 2))).trans now.here.2.1
    have recorded : (rep.afterRun (m + 3)).minExprTime = rep.time (m + 3) := by
      rw [afterRun, (explainOnePlan_slot _ _ h.enableME).1,
        recordExpr_taken off round.ge (.inl time)]
      split_ifs <;> rfl
    have later := positive (m + 3) (by omega)
    rw [← recorded, unrecorded.1, time] at later
    exact lt_irrefl _ later

/-- **The runs of best vectors stay out of the record exactly when no vector is
repeated.** -/
theorem best_unrecorded_iff (rep : Repetition T) (searching : rep.Searching)
    (quartet : rep.cfg.enableQuartet = true) (some : 1 ≤ rep.slots) (positive : ∀ n, 1 ≤ n → 0 < rep.time n) :
    (∀ n, rep.ExecutesBest n → rep.Unrecorded n) ↔ rep.cfg.reserved1 = 0 := by
  constructor
  · intro unrecorded
    by_contra repeats
    obtain ⟨n, executes, changed⟩ := exists_recorded searching quartet some positive repeats
    exact changed (unrecorded n executes)
  · exact fun single n executes => unrecorded_of_single searching single executes

theorem best_unrecorded_steady : (steady true 2).Searching ∧
    ∀ n, (steady true 2).ExecutesBest n → (steady true 2).Unrecorded n :=
  ⟨steady_searching true 2, (best_unrecorded_iff (steady true 2) (steady_searching true 2) rfl
    (by decide) (fun _ _ => Nat.one_pos)).mpr rfl⟩

/-- Every vector is used for two runs. -/
def twice : Repetition Nat :=
  { steady true 1 with cfg := { (steady true 1).cfg with reserved1 := 1 } }

theorem twice_recorded : ¬ ∀ n, twice.ExecutesBest n → twice.Unrecorded n := by
  have searching : twice.Searching := ⟨rfl, rfl, rfl⟩
  obtain ⟨n, executes, changed⟩ := exists_recorded searching rfl (by decide) (fun _ _ => Nat.one_pos) (by decide)
  exact fun unrecorded => changed (unrecorded n executes)

/-! ## The sweeps of a search that repeats no vector -/

/-- Every decision of such a search, with its record before and after it. -/
structure Swept (rep : Repetition T) (place next : Place) (n : Nat) : Prop where
  running : Running rep.slots next (rep.inRun (n + 1))
  useTheBest : (rep.inRun (n + 1)).useTheBest = next.isBest
  minExprTime : (rep.inRun (n + 1)).minExprTime = if place.lastTrial then 0 else (rep.afterRun n).minExprTime
  bestCurrent : (rep.inRun (n + 1)).bestCurrentJITLevels = (rep.afterRun n).bestCurrentJITLevels

/-- What the runs of the sweeps assume. -/
structure Sweeping (rep : Repetition T) : Prop extends rep.Searching where
  quartet : rep.cfg.enableQuartet = true
  some : 1 ≤ rep.slots
  single : rep.cfg.reserved1 = 0
  positive : ∀ n, 1 ≤ n → 0 < rep.time n

lemma Sweeping.swept (h : rep.Sweeping) (k : Nat) :
    rep.Swept (placeAt rep.slots k) (placeAt rep.slots (k + 1)) (k + 2) := by
  have decision := isDecision_single h.toSearching h.single (k := k + 1) (by omega)
  obtain ⟨now, before, eq⟩ := decision.step h.toSearching h.quartet h.some
  obtain ⟨best, time⟩ := before.decided_record h.quartet h.some
  exact ⟨now, eq ▸ best, eq ▸ time, eq ▸ decideLevels_bestCurrent rep.cfg _⟩

/-- A trial of slot `j` at `level` in run `n`, while level 3 is off. -/
structure Trial (rep : Repetition T) (j : Nat) (level : LevelCell) (n : Nat) : Prop where
  inside : j < (rep.inRun n).currentExprNum
  slot : (rep.inRun n).reserved2 = j
  round : 3 ≤ (rep.inRun n).reserved3
  no3 : (rep.inRun n).enableOPT3 = false
  off : (rep.inRun n).useTheBest = false
  level : (rep.inRun n).currentExprJITLevels j = level

/-- The levels tried for slot `j` and their times, the fastest of which is recorded. -/
def Holds (rep : Repetition T) (j : Nat) (tried : List (LevelCell × T)) (n : Nat) : Prop :=
  Fastest tried ((rep.afterRun n).bestCurrentJITLevels j) (rep.afterRun n).minExprTime

lemma Trial.taken {j n : Nat} {level : LevelCell} (trial : rep.Trial j level n) (h : rep.Searching)
    (taken : (rep.inRun n).minExprTime = 0 ∨ rep.time n < (rep.inRun n).minExprTime) :
    (rep.afterRun n).minExprTime = rep.time n ∧ (rep.afterRun n).bestCurrentJITLevels =
        Function.update (rep.inRun n).bestCurrentJITLevels j level := by
  obtain ⟨time, levels⟩ := explainOnePlan_slot (rep.time n) (rep.inRun n) h.enableME
  have inside := trial.inside
  rw [recordExpr_taken trial.off trial.round taken, trial.no3] at time levels
  refine ⟨time, levels.trans ?_⟩
  simp only [Bool.false_eq_true, if_false, recordSlot, trial.slot, if_pos inside, trial.level]

/-- **The first trial** of a slot is recorded. -/
theorem Trial.first {level : LevelCell} (trial : rep.Trial j level n)
    (h : rep.Searching) (unset : (rep.inRun n).minExprTime = 0) :
    rep.Holds j [(level, rep.time n)] n ∧ ∀ i, i ≠ j →
      (rep.afterRun n).bestCurrentJITLevels i = (rep.inRun n).bestCurrentJITLevels i := by
  obtain ⟨time, levels⟩ := trial.taken h (.inl unset)
  unfold Holds
  rw [time, levels, Function.update_self]
  exact ⟨fastest_one _ _, fun i other => Function.update_of_ne other _ _⟩

/-- **A further trial** replaces the record when it is faster. -/
theorem Trial.further {level : LevelCell}
    (trial : rep.Trial j level n) (h : rep.Searching) (positive : ∀ c ∈ tried, 0 < c.2)
    (held : Fastest tried ((rep.inRun n).bestCurrentJITLevels j) (rep.inRun n).minExprTime) :
    rep.Holds j (tried ++ [(level, rep.time n)]) n ∧ ∀ i, i ≠ j →
      (rep.afterRun n).bestCurrentJITLevels i = (rep.inRun n).bestCurrentJITLevels i := by
  have set : (rep.inRun n).minExprTime ≠ 0 := (positive _ held.mem).ne'
  by_cases faster : rep.time n < (rep.inRun n).minExprTime
  · obtain ⟨time, levels⟩ := trial.taken h (.inr faster)
    unfold Holds
    rw [time, levels, Function.update_self]
    exact ⟨held.replace faster, fun i other => Function.update_of_ne other _ _⟩
  · obtain ⟨time, levels⟩ := explainOnePlan_slot (rep.time n) (rep.inRun n) h.enableME
    rw [recordExpr_skipped trial.off (not_or.mpr ⟨set, faster⟩)] at time levels
    unfold Holds afterRun
    rw [time, levels]
    exact ⟨held.keep faster, fun _ _ => rfl⟩

/-- The run in which slot `i` is at a level and every other slot at 0 (`levelRun_single`). The
run of the third decision serves as level 0 for every slot. -/
def levelRun (rep : Repetition T) (i : Nat) : Nat → Nat
  | 0 => 5
  | 1 => 6 + 2 * i
  | 2 => 7 + 2 * i
  | _ => 7 + 2 * rep.slots + i

lemma Sweeping.levelRun_single (h : rep.Sweeping) {i level : Nat} (inside : i < rep.slots) (known : level ≤ 3) :
    Single rep.slots i level (rep.inRun (rep.levelRun i level)).currentExprJITLevels := by
  have here : ∀ {k place n}, placeAt rep.slots k = place → 1 ≤ k → n = k + 2 →
      At rep.slots place (rep.inRun n).position := by
    rintro (_ | k) _ _ rfl some rfl
    · omega
    · exact (h.swept k).running.here
  obtain ⟨low1, low2⟩ := placeAt_low rep.slots h.some i inside
  match level, known with
  | 0, _ =>
    intro j hj
    have zero := (here (k := 3) (n := 5) rfl (by omega) rfl).2.2.2.2.2.2 j hj
    split_ifs <;> exact zero
  | 1, _ => exact (here low1 (by omega) (by simp only [levelRun]; omega)).2.2.2.2.2.2
  | 2, _ => exact (here low2 (by omega) (by simp only [levelRun]; omega)).2.2.2.2.2.2
  | 3, _ =>
    exact (here (placeAt_opt rep.slots h.some i inside) (by omega) (by simp only [levelRun]; omega)).2.2.2.2.2

/-- After run `n` the entry of slot `i` is one of `levels`, and a fastest one. -/
def FastestLevel (rep : Repetition T) (levels : List Nat) (i n : Nat) : Prop :=
  ∃ l ∈ levels, (rep.afterRun n).bestCurrentJITLevels i = stored l ∧
    ∀ m ∈ levels, rep.time (rep.levelRun i l) ≤ rep.time (rep.levelRun i m)

/-- The levels of slot `i` with their times. -/
def trials (rep : Repetition T) (i : Nat) (levels : List Nat) : List (LevelCell × T) :=
  levels.map fun l : Nat => (stored l, rep.time (rep.levelRun i l))

lemma fastestLevel_of_trials {levels : List Nat} {value : T}
    (held : Fastest (rep.trials i levels) ((rep.afterRun n).bestCurrentJITLevels i) value) :
    rep.FastestLevel levels i n := by
  obtain ⟨l, known, eq⟩ := List.mem_map.mp held.mem
  obtain ⟨level, time⟩ := Prod.mk.inj eq
  refine ⟨l, known, level.symm, fun m other => ?_⟩
  rw [time]
  exact held.least _ (List.mem_map.mpr ⟨m, other, rfl⟩)

/-- Whether a fastest level stays one when level 0 is compared too. -/
lemma fastestLevel_zero_iff {levels : List Nat} (known : rep.FastestLevel levels i n) :
    rep.FastestLevel (0 :: levels) i n ↔ ∃ l ∈ levels, rep.time (rep.levelRun i l) ≤ rep.time (rep.levelRun i 0) := by
  obtain ⟨l, mem, eq, least⟩ := known
  constructor
  · rintro ⟨l', _, eq', least'⟩
    have same : l' = l := by
      have levels := congrArg LevelCell.level (eq'.symm.trans eq)
      exact Int.ofNat_inj.mp levels
    subst same
    exact ⟨l', mem, least' 0 List.mem_cons_self⟩
  · rintro ⟨m, other, faster⟩
    refine ⟨l, List.mem_cons_of_mem 0 mem, eq, fun k member => ?_⟩
    obtain rfl | among := List.mem_cons.mp member
    · exact (least m other).trans faster
    · exact least k among

/-- The levels the first sweep compares for a slot: the reset comes before the second
slot and every later one. -/
def compared : Nat → List Nat
  | 0 => [0, 1, 2]
  | _ + 1 => [1, 2]

lemma Swept.trial {l : Nat} {place : Place}
    (swept : rep.Swept place (.low j l) n) : rep.Trial j (stored l) (n + 1) := by
  obtain ⟨count, inside, _, round, slot, no3, vector⟩ := swept.running.here
  refine ⟨inside.trans_eq count.symm, slot, round.ge, no3, swept.useTheBest, ?_⟩
  exact (vector j inside).trans (if_pos rfl)

/-- The run with every slot at 0 is recorded for the first slot. -/
lemma Sweeping.holds_zero (h : rep.Sweeping) : rep.Holds 0 [(stored 0, rep.time 5)] 5 := by
  have swept := h.swept 2
  obtain ⟨count, _, _, round, slot, no3, vector⟩ := swept.running.here
  have inside := h.some
  have trial : rep.Trial 0 (stored 0) 5 :=
    ⟨inside.trans_eq count.symm, slot, round.ge, no3, swept.useTheBest, vector 0 inside⟩
  have unset : (rep.inRun 5).minExprTime = 0 := by
    have before := (h.swept 1).running.measured (rep.time 4) h.enableME h.some
    obtain ⟨_, zero⟩ | ⟨third, _⟩ := before.recorded
    · exact swept.minExprTime.trans zero
    · exact absurd third (by decide)
  exact (trial.first h.toSearching unset).1

/-- What is recorded for slot `j` when its second trial is measured, from what was when
the first one was. -/
lemma Sweeping.holds_second (h : rep.Sweeping) (inside : j < rep.slots) (positive : ∀ c ∈ tried, 0 < c.2)
    (held : rep.Holds j tried (6 + 2 * j)) :
    rep.Holds j (tried ++ [(stored 2, rep.time (7 + 2 * j))]) (7 + 2 * j) ∧ ∀ i, i ≠ j →
      (rep.afterRun (7 + 2 * j)).bestCurrentJITLevels i = (rep.afterRun (6 + 2 * j)).bestCurrentJITLevels i := by
  have swept := h.swept (4 + 2 * j)
  obtain ⟨low1, low2⟩ := placeAt_low rep.slots h.some j inside
  rw [low1, show 4 + 2 * j + 1 = 5 + 2 * j by omega, low2,
    show 4 + 2 * j + 2 = 6 + 2 * j by omega] at swept
  have trial := swept.trial
  rw [show 6 + 2 * j + 1 = 7 + 2 * j by omega] at trial
  have time := swept.minExprTime
  have levels := swept.bestCurrent
  rw [show 6 + 2 * j + 1 = 7 + 2 * j by omega] at time levels
  rw [← levels]
  refine trial.further h.toSearching positive ?_
  rw [levels, time]
  exact held

lemma Sweeping.trials_positive (h : rep.Sweeping) (i : Nat) (levels : List Nat) :
    ∀ c ∈ rep.trials i levels, 0 < c.2 := by
  intro c member
  obtain ⟨l, _, rfl⟩ := List.mem_map.mp member
  refine h.positive _ ?_
  unfold levelRun
  split <;> omega

/-- **The first sweep**: behind the trials of slot `j` every slot up to `j` holds the
fastest of its own. -/
theorem Sweeping.sweep_fastest (h : rep.Sweeping) (j : Nat) (inside : j < rep.slots) :
    ∀ i, i ≤ j → rep.FastestLevel (compared i) i (7 + 2 * j) := by
  induction j with
  | zero =>
    -- nothing was reset since the run with every slot at 0
    have swept := h.swept 3
    have trial := swept.trial (j := 0) (l := 1)
    have held : rep.Holds 0 (rep.trials 0 [0, 1]) 6 :=
      (trial.further h.toSearching (h.trials_positive 0 [0])
        (by rw [swept.bestCurrent, swept.minExprTime]; exact h.holds_zero)).1
    have both := (h.holds_second inside (h.trials_positive 0 [0, 1]) held).1
    intro i le
    rw [Nat.le_zero.mp le]
    exact fastestLevel_of_trials both
  | succ j ih =>
    have swept := h.swept (5 + 2 * j)
    rw [show 5 + 2 * j + 1 = 4 + 2 * (j + 1) by omega,
      (placeAt_low rep.slots h.some (j + 1) inside).1,
      (placeAt_low rep.slots h.some j (by omega)).2,
      show 5 + 2 * j + 2 = 7 + 2 * j by omega] at swept
    have trial := swept.trial
    obtain ⟨held, others⟩ := trial.first h.toSearching swept.minExprTime
    rw [swept.bestCurrent] at others
    rw [show 7 + 2 * j + 1 = 6 + 2 * (j + 1) by omega] at held others
    obtain ⟨both, kept⟩ := h.holds_second inside (h.trials_positive (j + 1) [1]) held
    intro i le
    obtain below | rfl := Nat.lt_or_eq_of_le le
    · unfold FastestLevel
      rw [kept i (by omega), others i (by omega)]
      exact ih (by omega) i (by omega)
    · exact fastestLevel_of_trials both

/-- **The sweep with level 3** records 3 for each of its slots: its only trial comes
behind a reset. -/
theorem Sweeping.opt_recorded (h : rep.Sweeping) (j : Nat) (inside : j < rep.slots) :
    ∀ i, i ≤ j → (rep.afterRun (7 + 2 * rep.slots + j)).bestCurrentJITLevels i = stored 3 := by
  -- one run of the sweep: slot `j` becomes 3, and a slot at 3 stays
  have step : ∀ j place n, rep.Swept place (.opt j) n → (rep.inRun (n + 1)).minExprTime = 0 →
      (rep.afterRun (n + 1)).bestCurrentJITLevels j = stored 3 ∧ ∀ i, i ≠ j →
        (rep.afterRun n).bestCurrentJITLevels i = stored 3 →
          (rep.afterRun (n + 1)).bestCurrentJITLevels i = stored 3 := by
    intro j place n swept unset
    obtain ⟨count, within, round, slot, with3, vector⟩ := swept.running.here
    simp only [Search.position] at count round slot with3 vector
    have levels := (explainOnePlan_slot (rep.time (n + 1)) (rep.inRun (n + 1)) h.enableME).2
    rw [recordExpr_taken swept.useTheBest round.ge (.inl unset), if_pos with3] at levels
    have self : (rep.inRun (n + 1)).currentExprJITLevels j = stored 3 :=
      (vector j within).trans (if_pos rfl)
    unfold afterRun
    rw [levels]
    refine ⟨?_, fun i other old => ?_⟩
    · simp [keepOPT3, recordSlot, slot, count, within, self]
    · have stays : (rep.inRun (n + 1)).bestCurrentJITLevels i = stored 3 :=
        (congrFun swept.bestCurrent i).trans old
      simp [keepOPT3, recordSlot, slot, count, within, other, stays, stored]
  induction j with
  | zero =>
    have best := h.swept (3 + 2 * rep.slots)
    have swept := h.swept (4 + 2 * rep.slots)
    rw [show 4 + 2 * rep.slots + 1 = 5 + 2 * rep.slots + 0 by omega,
      placeAt_opt rep.slots h.some 0 inside, placeAt_lowBest rep.slots h.some] at swept
    rw [show 3 + 2 * rep.slots + 1 = 4 + 2 * rep.slots by omega,
      placeAt_lowBest rep.slots h.some,
      show 3 + 2 * rep.slots = 5 + 2 * (rep.slots - 1) by have := h.some; omega,
      (placeAt_low rep.slots h.some (rep.slots - 1) (by have := h.some; omega)).2] at best
    -- the run of the local best in between is not recorded
    have unset : (rep.afterRun (4 + 2 * rep.slots + 2)).minExprTime = 0 := by
      rw [show 4 + 2 * rep.slots + 2 = 5 + 2 * (rep.slots - 1) + 2 + 1 by have := h.some; omega]
      exact (unrecorded_of_useTheBest h.toSearching best.useTheBest).1.trans best.minExprTime
    have recorded := (step 0 _ _ swept (swept.minExprTime.trans unset)).1
    intro i le
    rw [Nat.le_zero.mp le, show 7 + 2 * rep.slots + 0 = 4 + 2 * rep.slots + 2 + 1 by omega]
    exact recorded
  | succ j ih =>
    have swept := h.swept (5 + 2 * rep.slots + j)
    rw [show 5 + 2 * rep.slots + j + 1 = 5 + 2 * rep.slots + (j + 1) by omega,
      placeAt_opt rep.slots h.some (j + 1) inside,
      placeAt_opt rep.slots h.some j (by omega)] at swept
    obtain ⟨recorded, stays⟩ := step (j + 1) _ _ swept swept.minExprTime
    rw [show 5 + 2 * rep.slots + j + 2 = 7 + 2 * rep.slots + j by omega] at recorded stays
    intro i le
    obtain below | rfl := Nat.lt_or_eq_of_le le
    · exact stays i (by omega) (ih (by omega) i (by omega))
    · exact recorded

/-- Both sweeps end with a fastest level for every slot: the first with one of 0, 1 and 2,
the sweep with level 3 with one of 0 and 3. -/
def SweepsFastest (rep : Repetition T) : Prop :=
  (∀ i, i < rep.slots → rep.FastestLevel [0, 1, 2] i (5 + 2 * rep.slots)) ∧
    ∀ i, i < rep.slots → rep.FastestLevel [0, 3] i (6 + 3 * rep.slots)

lemma Sweeping.sweep_end (h : rep.Sweeping) (inside : i < rep.slots) :
    rep.FastestLevel (compared i) i (5 + 2 * rep.slots) := by
  have fastest := h.sweep_fastest (rep.slots - 1) (by omega) i (by omega)
  rwa [show 7 + 2 * (rep.slots - 1) = 5 + 2 * rep.slots by omega] at fastest

lemma Sweeping.opt_end (h : rep.Sweeping) (inside : i < rep.slots) : rep.FastestLevel [3] i (6 + 3 * rep.slots) := by
  have recorded := h.opt_recorded (rep.slots - 1) (by omega) i (by omega)
  rw [show 7 + 2 * rep.slots + (rep.slots - 1) = 6 + 3 * rep.slots by omega] at recorded
  refine ⟨3, List.mem_singleton.mpr rfl, recorded, List.forall_mem_singleton.mpr (le_refl _)⟩

/-- **The sweeps end with a fastest level for every slot exactly when** every slot but the
first has a level 1 or 2, and every slot a level 3, that is no slower than the run with
every slot at 0. -/
theorem sweeps_fastest_iff (rep : Repetition T) (sweeping : rep.Sweeping) : rep.SweepsFastest ↔
      (∀ i, 1 ≤ i → i < rep.slots → ∃ l ∈ [1, 2],
        rep.time (rep.levelRun i l) ≤ rep.time (rep.levelRun i 0)) ∧
      ∀ i, i < rep.slots → rep.time (rep.levelRun i 3) ≤ rep.time (rep.levelRun i 0) := by
  refine and_congr ?_ (forall₂_congr fun i inside => ?_)
  · constructor
    · intro fastest i later inside
      obtain ⟨i, rfl⟩ : ∃ m, i = m + 1 := ⟨i - 1, by omega⟩
      exact (fastestLevel_zero_iff (sweeping.sweep_end inside)).mp (fastest (i + 1) inside)
    · intro faster i inside
      match i, inside with
      | 0, inside => exact sweeping.sweep_end inside
      | i + 1, inside =>
        exact (fastestLevel_zero_iff (sweeping.sweep_end inside)).mpr (faster (i + 1) (by omega) inside)
  · rw [fastestLevel_zero_iff (sweeping.opt_end inside)]
    simp only [List.mem_singleton, exists_eq_left]

lemma steady_sweeping : (steady true 2).Sweeping where
  toSearching := steady_searching true 2
  quartet := rfl
  some := by decide
  single := rfl
  positive _ _ := Nat.one_pos

theorem sweeps_fastest_steady : (steady true 2).Sweeping ∧ (steady true 2).SweepsFastest :=
  ⟨steady_sweeping, (sweeps_fastest_iff (steady true 2) steady_sweeping).mpr
    ⟨fun _ _ _ => ⟨1, by decide, Nat.le_refl 1⟩, fun _ _ => Nat.le_refl 1⟩⟩

/-- No level of either slot is worth its compilation. -/
def unprofitable : Repetition Nat :=
  { steady true 2 with time := fun n => if n = 5 then 1 else 2 }

lemma unprofitable_sweeping : unprofitable.Sweeping where
  toSearching := ⟨rfl, rfl, rfl⟩
  quartet := rfl
  some := by decide
  single := rfl
  positive n _ := by
    show 0 < if n = 5 then 1 else 2
    split_ifs <;> decide

/-- Neither sweep ends with a fastest level: the first keeps a level for the second slot that
is slower than 0, the other one keeps 3. -/
theorem unprofitable_level_kept : unprofitable.Sweeping ∧
    ¬ unprofitable.FastestLevel [0, 1, 2] 1 9 ∧ ¬ unprofitable.FastestLevel [0, 3] 0 12 := by
  refine ⟨unprofitable_sweeping, fun fastest => ?_, fun fastest => ?_⟩
  · obtain ⟨l, known, faster⟩ := (fastestLevel_zero_iff
      (unprofitable_sweeping.sweep_end (i := 1) (by decide))).mp fastest
    revert l
    decide
  · obtain ⟨l, known, faster⟩ := (fastestLevel_zero_iff
      (unprofitable_sweeping.opt_end (i := 0) (by decide))).mp fastest
    revert l
    decide

end Repetition

end Hex.Kernel.LevelSearch
