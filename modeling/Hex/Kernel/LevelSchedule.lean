/-
# Kernel.LevelSchedule — the order in which the search visits level vectors

The search of `LevelSearch` is a walk along a fixed list of places. `Place` is
that list, written down on its own: `Place.next` is the whole control flow,
and `placeAt` has a closed form.

The code refines it. `At E p` says what the globals are while the search is at
place `p`, and `decideLevels_eq` which branch of `decideLevels` a decision takes
from there. When decisions happen is independent of all that (`Repetition.timing`):
decision `k` is run `decisionRun r k`.
-/
import Hex.Kernel.LevelSearch
import Mathlib.Data.Nat.Count
import Mathlib.Tactic.SplitIfs
import Mathlib.Tactic.Common

namespace Hex.Kernel.LevelSearch

/-! ## The places of the search -/

/-- Where the search is. `uniform c` is the `c`-th run with every slot at level
`c % 3`; `low j l` varies slot `j` without level 3, `opt j` with it. -/
inductive Place where
  | start
  | uniform (c : Nat)
  | low (j l : Nat)
  | lowBest
  | opt (j : Nat)
  | optBest
  | settled
  deriving DecidableEq, Repr

/-- The place after `p` in a search over `E` slots. -/
def Place.next (E : Nat) : Place → Place
  | .start => .uniform 1
  | .uniform c => if c < 3 then .uniform (c + 1) else .low 0 1
  | .low j l => if l < 2 then .low j (l + 1) else if j + 1 < E then .low (j + 1) 1 else .lowBest
  | .lowBest => .opt 0
  | .opt j => if j + 1 < E then .opt (j + 1) else .optBest
  | .optBest => .settled
  | .settled => .settled

/-- The place after `k` decisions. -/
def placeAt (E : Nat) : Nat → Place
  | 0 => .start
  | k + 1 => (placeAt E k).next E

lemma next_placeAt (E : Nat) {k : Nat} (later : 1 ≤ k) : (placeAt E (k - 1)).next E = placeAt E k := by
  obtain ⟨k, rfl⟩ : ∃ i, k = i + 1 := ⟨k - 1, by omega⟩
  rfl

lemma placeAt_low (E : Nat) (hE : 1 ≤ E) :
    ∀ j, j < E → placeAt E (4 + 2 * j) = .low j 1 ∧ placeAt E (5 + 2 * j) = .low j 2
  | 0, _ => by simp [placeAt, Place.next]
  | j + 1, hj => by
    obtain ⟨_, prior⟩ := placeAt_low E hE j (by omega)
    have one : placeAt E (4 + 2 * (j + 1)) = .low (j + 1) 1 := by
      rw [show 4 + 2 * (j + 1) = (5 + 2 * j) + 1 by omega, placeAt, prior]
      simp [Place.next, hj]
    refine ⟨one, ?_⟩
    rw [show 5 + 2 * (j + 1) = (4 + 2 * (j + 1)) + 1 by omega, placeAt, one]
    simp [Place.next]

lemma placeAt_lowBest (E : Nat) (hE : 1 ≤ E) : placeAt E (4 + 2 * E) = .lowBest := by
  obtain ⟨j, rfl⟩ : ∃ j, E = j + 1 := ⟨E - 1, by omega⟩
  obtain ⟨_, prior⟩ := placeAt_low (j + 1) hE j (by omega)
  rw [show 4 + 2 * (j + 1) = (5 + 2 * j) + 1 by omega, placeAt, prior]
  simp [Place.next]

lemma placeAt_opt (E : Nat) (hE : 1 ≤ E) : ∀ j, j < E → placeAt E (5 + 2 * E + j) = .opt j
  | 0, _ => by
    rw [show 5 + 2 * E + 0 = (4 + 2 * E) + 1 by omega, placeAt, placeAt_lowBest E hE]
    rfl
  | j + 1, hj => by
    rw [show 5 + 2 * E + (j + 1) = (5 + 2 * E + j) + 1 by omega, placeAt,
      placeAt_opt E hE j (by omega)]
    simp [Place.next, hj]

lemma placeAt_optBest (E : Nat) (hE : 1 ≤ E) : placeAt E (5 + 3 * E) = .optBest := by
  obtain ⟨j, rfl⟩ : ∃ j, E = j + 1 := ⟨E - 1, by omega⟩
  rw [show 5 + 3 * (j + 1) = (5 + 2 * (j + 1) + j) + 1 by omega, placeAt,
    placeAt_opt (j + 1) hE j (by omega)]
  simp [Place.next]

lemma placeAt_settled (E : Nat) (hE : 1 ≤ E) (k : Nat) (hk : 6 + 3 * E ≤ k) : placeAt E k = .settled := by
  induction k, hk using Nat.le_induction with
  | base =>
    rw [show 6 + 3 * E = (5 + 3 * E) + 1 by omega, placeAt, placeAt_optBest E hE]
    rfl
  | succ k _ ih => rw [placeAt, ih]; rfl

/-! ## The globals at a place

`Position` is the part of the state that measuring a run leaves alone. -/

/-- The globals `exec_simple_query` decides on. -/
structure Position where
  currentStatement : Option String
  reserved2 : Nat
  reserved3 : Nat
  enableOPT3 : Bool
  countExpr : Bool
  currentExprNum : Nat
  currentExprJITLevels : Levels
  currentStatementExecNum : Nat
  currentLevelsCount : Nat

def Search.position {T : Type} (s : Search T) : Position where
  currentStatement := s.currentStatement
  reserved2 := s.reserved2
  reserved3 := s.reserved3
  enableOPT3 := s.enableOPT3
  countExpr := s.countExpr
  currentExprNum := s.currentExprNum
  currentExprJITLevels := s.currentExprJITLevels
  currentStatementExecNum := s.currentStatementExecNum
  currentLevelsCount := s.currentLevelsCount

section Measure

variable {T : Type} [Zero T] [LinearOrder T]

lemma recordTotal_position (t : T) (s : Search T) : (recordTotal t s).position = s.position := by
  unfold recordTotal; split_ifs <;> rfl

lemma recordExpr_position (t : T) (s : Search T) : (recordExpr t s).position = s.position := by
  unfold recordExpr; split_ifs <;> rfl

/-- Measuring a run moves nothing the next decision starts from. -/
lemma explainOnePlan_position (cfg : Settings) (t : T) (s : Search T) :
    (explainOnePlan cfg t s).position = s.position := by
  unfold explainOnePlan
  split_ifs
  · rw [recordExpr_position, recordTotal_position]
  · rfl

lemma explainOnePlan_useTheBest (cfg : Settings) (t : T) (s : Search T)
    (on : cfg.enableME = true) : (explainOnePlan cfg t s).useTheBest = false := by
  simp only [explainOnePlan, on, if_true, recordExpr, keepOPT3, recordSlot]
  split_ifs <;> simp_all

end Measure

def LevelCell.Low (c : LevelCell) : Prop := c = stored 0 ∨ c = stored 1 ∨ c = stored 2

/-- A level that can stand beside level 3. -/
def LevelCell.Flat (c : LevelCell) : Prop := c = stored 0 ∨ c = stored 3

/-- A level the program computed: it was stored, and is one of the four levels. -/
def LevelCell.Computed (c : LevelCell) : Prop :=
  c.written = true ∧ (c.level = 0 ∨ c.level = 1 ∨ c.level = 2 ∨ c.level = 3)

lemma LevelCell.Low.computed {c : LevelCell} (h : c.Low) : c.Computed := by
  rcases h with rfl | rfl | rfl <;> simp [Computed, stored]

lemma LevelCell.Flat.computed {c : LevelCell} (h : c.Flat) : c.Computed := by
  rcases h with rfl | rfl <;> simp [Computed, stored]

/-- Slot `j` is at `level` and every other slot at 0. -/
def Single (E j : Nat) (level : Int) (a : Levels) : Prop :=
  ∀ i, i < E → a i = if i = j then stored level else stored 0

/-- A vector that one JIT handle can serve, all of whose levels were computed:
level 3 stands beside no level 1 or 2. -/
structure Clean (E : Nat) (a : Levels) : Prop where
  computed : ∀ i, i < E → (a i).Computed
  unmixed : ∀ i j, i < E → j < E → (a i).level = 3 → (a j).level ≠ 1 ∧ (a j).level ≠ 2

lemma Clean.congr {E : Nat} {a b : Levels} (h : Clean E a) (same : ∀ i, i < E → b i = a i) : Clean E b where
  computed i hi := by rw [same i hi]; exact h.computed i hi
  unmixed i j hi hj := by rw [same i hi, same j hj]; exact h.unmixed i j hi hj

lemma Clean.of_low {E : Nat} {a : Levels} (h : ∀ i, i < E → (a i).Low) : Clean E a where
  computed i hi := (h i hi).computed
  unmixed i j hi _ three := by
    rcases h i hi with eq | eq | eq <;> simp [eq, stored] at three

lemma Clean.of_flat {E : Nat} {a : Levels} (h : ∀ i, i < E → (a i).Flat) : Clean E a where
  computed i hi := (h i hi).computed
  unmixed i j _ hj _ := by
    rcases h j hj with eq | eq <;> simp [eq, stored]

lemma Clean.of_one {a : Levels} (h : (a 0).Computed) : Clean 1 a where
  computed i hi := by rwa [show i = 0 by omega]
  unmixed i j hi hj three := by
    rw [show i = 0 by omega] at three
    rw [show j = 0 by omega, three]
    decide

/-- The globals while a search over `E` slots is at a place. -/
def At (E : Nat) (place : Place) (s : Position) : Prop :=
  s.currentExprNum = E ∧
  match place with
  | .start =>
    s.reserved3 = 0 ∧ s.reserved2 = 0 ∧ s.enableOPT3 = false ∧ ∀ i, i < E → s.currentExprJITLevels i = stored 0
  | .uniform c =>
    1 ≤ c ∧ c ≤ 3 ∧ s.reserved3 = c ∧ s.reserved2 = 0 ∧ s.enableOPT3 = false ∧
      ∀ i, i < E → s.currentExprJITLevels i = stored (c % 3 : Nat)
  | .low j l =>
    j < E ∧ (l = 1 ∨ l = 2) ∧ s.reserved3 = 3 ∧ s.reserved2 = j ∧ s.enableOPT3 = false ∧
      Single E j l s.currentExprJITLevels
  | .lowBest =>
    s.reserved3 = 3 ∧ s.reserved2 = 0 ∧ s.enableOPT3 = true ∧ ∀ i, i < E → (s.currentExprJITLevels i).Low
  | .opt j =>
    j < E ∧ s.reserved3 = 3 ∧ s.reserved2 = j ∧ s.enableOPT3 = true ∧ Single E j 3 s.currentExprJITLevels
  | .optBest | .settled =>
    s.reserved3 = 3 ∧ s.reserved2 = E ∧ s.enableOPT3 = false ∧ Clean E s.currentExprJITLevels

lemma At.clean {E : Nat} {place : Place} {s : Position} (h : At E place s) : Clean E s.currentExprJITLevels := by
  obtain ⟨_, h⟩ := h
  cases place with
  | start => exact .of_low fun i hi => .inl (h.2.2.2 i hi)
  | uniform c =>
    obtain ⟨low, high, _, _, _, h⟩ := h
    have : c = 1 ∨ c = 2 ∨ c = 3 := by omega
    refine .of_low fun i hi => ?_
    rcases this with rfl | rfl | rfl <;> simp [h i hi, LevelCell.Low, stored]
  | low j l =>
    obtain ⟨_, level, _, _, _, h⟩ := h
    refine .of_low fun i hi => ?_
    rw [h i hi]
    rcases level with rfl | rfl <;> split_ifs <;> simp [LevelCell.Low, stored]
  | lowBest => exact .of_low h.2.2.2
  | opt j =>
    refine .of_flat fun i hi => ?_
    rw [h.2.2.2.2 i hi]
    split_ifs <;> simp [LevelCell.Flat, stored]
  | optBest | settled => exact h.2.2.2

/-! ## What a decision does

The states that a decision can lead to, and one equation for each way through
`decideLevels`, from a state whose run was measured (`useTheBest` is off). -/

namespace Search

variable {T : Type} [Zero T] (s : Search T)

def raiseAll : Search T :=
  { s with
    reserved3 := s.reserved3 + 1
    currentExprJITLevels :=
      fill s.currentExprNum (allAt ((s.reserved3 + 1) % 3 : Nat)) s.currentExprJITLevels
    currentLevelsCount := 0 }

def raiseSlot : Search T :=
  { s with
    currentExprJITLevels := Function.update s.currentExprJITLevels s.reserved2 (s.currentExprJITLevels s.reserved2).bump
    currentLevelsCount := 0 }

def nextSlot : Search T :=
  { s with
    currentExprJITLevels :=
      let cleared := Function.update s.currentExprJITLevels s.reserved2 (stored 0)
      Function.update cleared (s.reserved2 + 1) (cleared (s.reserved2 + 1)).bump
    minExprTime := 0
    reserved2 := s.reserved2 + 1
    useTheBest := false
    currentLevelsCount := 0 }

def endSweep : Search T :=
  { s with
    currentExprJITLevels := fill s.currentExprNum s.bestCurrentJITLevels
      (Function.update s.currentExprJITLevels s.reserved2 (stored 0))
    minExprTime := 0
    reserved2 := 0
    useTheBest := true
    enableOPT3 := true
    currentLevelsCount := 0 }

def startOPT3 : Search T :=
  { s with
    currentExprJITLevels := Function.update (fill s.currentExprNum (allAt 0) s.currentExprJITLevels) 0 (stored 3)
    currentLevelsCount := 0 }

def nextOPT3 : Search T :=
  { s with
    currentExprJITLevels := Function.update
      (Function.update s.currentExprJITLevels s.reserved2 (stored 0)) (s.reserved2 + 1) (stored 3)
    minExprTime := 0
    reserved2 := s.reserved2 + 1
    useTheBest := false
    currentLevelsCount := 0 }

/-- The sweep with level 3 ends with its local best. -/
def endOPT3 : Search T :=
  { s with
    currentExprJITLevels := fill s.currentExprNum s.bestCurrentJITLevels
      (Function.update s.currentExprJITLevels s.reserved2 (stored 0))
    minExprTime := 0
    reserved2 := s.reserved2 + 1
    useTheBest := true
    enableOPT3 := false
    currentLevelsCount := 0 }

def settle : Search T :=
  { s with
    useTheBest := true
    currentExprJITLevels := fill s.currentExprNum s.bestJITLevels s.currentExprJITLevels
    currentLevelsCount := 0 }

end Search

section Branches

variable {T : Type} [Zero T] (cfg : Settings) (s : Search T)

lemma decideLevels_uniform (quartet : cfg.enableQuartet = true) (early : s.reserved3 < 3)
    (off : s.useTheBest = false) : decideLevels cfg s = s.raiseAll := by
  simp [decideLevels, chooseLevels, quartet, early, applyBest, off, Search.raiseAll]

lemma decideLevels_settled (late : ¬ (cfg.enableQuartet = true ∧ s.reserved3 < 3))
    (past : s.currentExprNum ≤ s.reserved2) (no3 : s.enableOPT3 = false) : decideLevels cfg s = s.settle := by
  simp [decideLevels, chooseLevels, late, past, applyBest, no3, Search.settle]

section Sweep

variable (late : ¬ (cfg.enableQuartet = true ∧ s.reserved3 < 3)) (inside : s.reserved2 < s.currentExprNum)
  (no3 : s.enableOPT3 = false) (off : s.useTheBest = false)

include late inside no3

include off in
lemma decideLevels_sweep_bump (small : (s.currentExprJITLevels s.reserved2).level ≠ 2) :
    decideLevels cfg s = s.raiseSlot := by
  have next : (s.currentExprJITLevels s.reserved2).level + 1 ≠ 3 := by omega
  simp [decideLevels, chooseLevels, late, Nat.not_le.mpr inside, no3, sweep, LevelCell.bump, next,
    applyBest, off, Search.raiseSlot]

lemma decideLevels_sweep_carry (full : (s.currentExprJITLevels s.reserved2).level = 2)
    (more : s.reserved2 + 1 < s.currentExprNum) : decideLevels cfg s = s.nextSlot := by
  simp [decideLevels, chooseLevels, late, Nat.not_le.mpr inside, no3, sweep, LevelCell.bump, full,
    Nat.not_le.mpr more, applyBest, Search.nextSlot]

lemma decideLevels_sweep_done (full : (s.currentExprJITLevels s.reserved2).level = 2)
    (last : s.currentExprNum ≤ s.reserved2 + 1) : decideLevels cfg s = s.endSweep := by
  have some : s.currentExprNum ≠ 0 := by omega
  simp [decideLevels, chooseLevels, late, Nat.not_le.mpr inside, no3, sweep, LevelCell.bump, full, last,
    applyBest, some, Search.endSweep]

end Sweep

section Opt

variable (late : ¬ (cfg.enableQuartet = true ∧ s.reserved3 < 3)) (inside : s.reserved2 < s.currentExprNum)
  (with3 : s.enableOPT3 = true) (off : s.useTheBest = false)

include late inside with3

include off in
lemma decideLevels_opt_first (first : s.reserved2 = 0)
    (other : (s.currentExprJITLevels 0).level ≠ 3) : decideLevels cfg s = s.startOPT3 := by
  have some : s.currentExprNum ≠ 0 := by omega
  simp [decideLevels, chooseLevels, late, with3, sweepOPT3, first, other, some, fill, allAt, stored,
    Nat.pos_of_ne_zero some, applyBest, off, Search.startOPT3]

lemma decideLevels_opt_carry (at3 : (s.currentExprJITLevels s.reserved2).level = 3)
    (more : s.reserved2 + 1 < s.currentExprNum) : decideLevels cfg s = s.nextOPT3 := by
  simp [decideLevels, chooseLevels, late, Nat.not_le.mpr inside, with3, sweepOPT3, at3,
    Nat.not_le.mpr more, applyBest, Search.nextOPT3]

lemma decideLevels_opt_done (at3 : (s.currentExprJITLevels s.reserved2).level = 3)
    (last : s.currentExprNum ≤ s.reserved2 + 1) : decideLevels cfg s = s.endOPT3 := by
  simp [decideLevels, chooseLevels, late, Nat.not_le.mpr inside, with3, sweepOPT3, at3, last, applyBest,
    Search.endOPT3]

end Opt

end Branches

section Decided

variable {T : Type} [Zero T]

/-- What the decision after a run at a place does. -/
def Place.decided (E : Nat) (s : Search T) : Place → Search T
  | .start => s.raiseAll
  | .uniform c => if c < 3 then s.raiseAll else s.raiseSlot
  | .low j l => if l < 2 then s.raiseSlot else if j + 1 < E then s.nextSlot else s.endSweep
  | .lowBest => s.startOPT3
  | .opt j => if j + 1 < E then s.nextOPT3 else s.endOPT3
  | .optBest | .settled => s.settle

/-- **The place says which way a decision goes.** -/
theorem decideLevels_eq {cfg : Settings} {E : Nat} {place : Place} {s : Search T}
    (quartet : cfg.enableQuartet = true) (some : 1 ≤ E) (off : s.useTheBest = false)
    (here : At E place s.position) : decideLevels cfg s = place.decided E s := by
  obtain ⟨count, here⟩ := here
  simp only [Search.position] at count here
  cases place with
  | start => exact decideLevels_uniform cfg s quartet (by omega) off
  | uniform c =>
    obtain ⟨_, high, round, slot, no3, vector⟩ := here
    simp only [Place.decided]
    split_ifs with early
    · exact decideLevels_uniform cfg s quartet (by omega) off
    · refine decideLevels_sweep_bump cfg s (by omega) (by omega) no3 off ?_
      have third : c = 3 := by omega
      rw [slot, vector 0 (by omega), third]
      decide
  | low j l =>
    obtain ⟨inside, level, round, slot, no3, vector⟩ := here
    have self : (s.currentExprJITLevels s.reserved2).level = l := by
      rw [slot, vector j inside, if_pos rfl]
      rfl
    simp only [Place.decided]
    split_ifs with one more
    · exact decideLevels_sweep_bump cfg s (by omega) (by omega) no3 off (by omega)
    · exact decideLevels_sweep_carry cfg s (by omega) (by omega) no3 (by omega) (by omega)
    · exact decideLevels_sweep_done cfg s (by omega) (by omega) no3 (by omega) (by omega)
  | lowBest =>
    obtain ⟨round, slot, with3, vector⟩ := here
    refine decideLevels_opt_first cfg s (by omega) (by omega) with3 off slot ?_
    rcases vector 0 (by omega) with eq | eq | eq <;> rw [eq] <;> decide
  | opt j =>
    obtain ⟨inside, round, slot, with3, vector⟩ := here
    have at3 : (s.currentExprJITLevels s.reserved2).level = 3 := by
      rw [slot, vector j inside, if_pos rfl]
      rfl
    simp only [Place.decided]
    split_ifs with more
    · exact decideLevels_opt_carry cfg s (by omega) (by omega) with3 at3 (by omega)
    · exact decideLevels_opt_done cfg s (by omega) (by omega) with3 at3 (by omega)
  | optBest | settled =>
    obtain ⟨round, slot, no3, _⟩ := here
    exact decideLevels_settled cfg s (by omega) (by omega) no3

end Decided

end Hex.Kernel.LevelSearch
