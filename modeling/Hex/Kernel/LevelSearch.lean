/-
# Kernel.LevelSearch — choosing the JIT level of every expression slot

A repeated statement is used to search for the JIT level of each of its
expressions. The search is split over two functions that share six globals:

* `execSimpleQuery` (`exec_simple_query`, tcop/postgres.c) chooses the level
  vector before a run: `chooseLevels` moves the search one place on and
  `applyBest` overwrites the vector with one of the two best vectors;
* `explainOnePlan` (`ExplainOnePlan`, commands/explain.c) measures the run and
  records the vector in `bestJITLevels` (global best) and one entry of it in
  `bestCurrentJITLevels` (best for the slot being varied).

Both best arrays come straight from `malloc`. A `LevelCell` therefore carries
the int it holds together with whether the program has stored it since the
allocation; copying a cell copies that mark.

The level arrays are functions of the slot number. Run counters are naturals.
-/
import Mathlib.Order.Lattice
import Mathlib.Logic.Function.Basic

namespace Hex.Kernel.LevelSearch

/-- `EXPR_MAX_NUM`: the entries of each level array. -/
def exprMaxNum : Nat := 64

/-- One int of a level array, and whether the program stored it. -/
structure LevelCell where
  level : Int
  written : Bool
  deriving DecidableEq, Repr

/-- A level the program computed. -/
def stored (level : Int) : LevelCell := ⟨level, true⟩

/-- What `malloc` handed out. -/
def unwritten (garbage : Int) : LevelCell := ⟨garbage, false⟩

/-- `a[i] += 1`: what is computed from an unwritten cell is as unwritten. -/
def LevelCell.bump (c : LevelCell) : LevelCell := { c with level := c.level + 1 }

abbrev Levels := Nat → LevelCell

/-- `for (i = 0; i < n; i++) a[i] = f(i);` -/
def fill (n : Nat) (f : Levels) (a : Levels) : Levels := fun i => if i < n then f i else a i

def allAt (level : Int) : Levels := fun _ => stored level

/-- The contents of the blocks a new statement allocates. -/
structure Malloc where
  currentExprJITLevels : Nat → Int
  bestJITLevels : Nat → Int
  bestCurrentJITLevels : Nat → Int

/-- The settings the search reads (globals.c, set from the configuration). -/
structure Settings where
  enableME : Bool
  testME : Bool
  enableQuartet : Bool
  enableExprCount : Bool
  reserved1 : Nat

/-- The per-backend globals of the search; `T` is the type of run times. -/
structure Search (T : Type) where
  currentStatement : Option String
  minTotalTime : T
  minExprTime : T
  reserved2 : Nat
  reserved3 : Nat
  enableOPT3 : Bool
  useTheBest : Bool
  countExpr : Bool
  currentExprNum : Nat
  currentExprJITLevels : Levels
  bestJITLevels : Levels
  bestCurrentJITLevels : Levels
  currentStatementExecNum : Nat
  currentLevelsCount : Nat

/-- `strcasecmp(a, b) == 0`. -/
def sameText (a b : String) : Bool := a.map Char.toLower == b.map Char.toLower

section Choose

variable {T : Type} [Zero T]

def newStatement (cfg : Settings) (mem : Malloc) (query : String) (s : Search T) : Search T where
  currentStatement := some query
  minTotalTime := 0
  minExprTime := 0
  reserved2 := 0
  reserved3 := 0
  enableOPT3 := false
  useTheBest := false
  countExpr := if cfg.enableExprCount then true else s.countExpr
  currentExprNum := 0
  currentExprJITLevels :=
    fill exprMaxNum (allAt 0) fun i => unwritten (mem.currentExprJITLevels i)
  bestJITLevels := fun i => unwritten (mem.bestJITLevels i)
  bestCurrentJITLevels := fun i => unwritten (mem.bestCurrentJITLevels i)
  currentStatementExecNum := 0
  currentLevelsCount := 0

/-- The sweep with level 3: each slot in turn is 3 while the others are 0. -/
def sweepOPT3 (s : Search T) : Search T :=
  -- the first visit clears what the best vector of the other sweep left behind
  let levels :=
    if s.reserved2 = 0 ∧ (s.currentExprJITLevels s.reserved2).level ≠ 3 then
      fill s.currentExprNum (allAt 0) s.currentExprJITLevels
    else s.currentExprJITLevels
  if (levels s.reserved2).level = 3 then
    let cleared := Function.update levels s.reserved2 (stored 0)
    let next := s.reserved2 + 1
    if s.currentExprNum ≤ next then
      { s with
        currentExprJITLevels := cleared, minExprTime := 0, reserved2 := next, useTheBest := true }
    else
      { s with
        currentExprJITLevels := Function.update cleared next (stored 3), minExprTime := 0,
        reserved2 := next, useTheBest := false }
  else
    { s with currentExprJITLevels := Function.update levels s.reserved2 (stored 3) }

/-- The sweep without level 3: each slot in turn is 1 and 2 while the others are 0. -/
def sweep (s : Search T) : Search T :=
  let bumped :=
    Function.update s.currentExprJITLevels s.reserved2 (s.currentExprJITLevels s.reserved2).bump
  if (bumped s.reserved2).level = 3 then
    let cleared := Function.update bumped s.reserved2 (stored 0)
    let next := s.reserved2 + 1
    if s.currentExprNum ≤ next then
      -- all slots seen: use the local best once, then sweep again with level 3
      { s with
        currentExprJITLevels := cleared, minExprTime := 0, reserved2 := 0,
        useTheBest := true, enableOPT3 := true }
    else
      { s with
        currentExprJITLevels := Function.update cleared next (cleared next).bump,
        minExprTime := 0, reserved2 := next, useTheBest := false }
  else
    { s with currentExprJITLevels := bumped }

def chooseLevels (cfg : Settings) (s : Search T) : Search T :=
  if cfg.enableQuartet = true ∧ s.reserved3 < 3 then
    { s with
      reserved3 := s.reserved3 + 1
      currentExprJITLevels :=
        fill s.currentExprNum (allAt ((s.reserved3 + 1) % 3 : Nat)) s.currentExprJITLevels }
  else if s.currentExprNum ≤ s.reserved2 then { s with useTheBest := true }
  else if s.enableOPT3 then sweepOPT3 s
  else sweep s

/-- Overwrite the vector with a best vector when the search asks for it. -/
def applyBest (s : Search T) : Search T :=
  if s.currentExprNum ≤ s.reserved2 ∧ s.useTheBest = true ∧ s.enableOPT3 = true then
    { s with
      currentExprJITLevels := fill s.currentExprNum s.bestCurrentJITLevels s.currentExprJITLevels
      enableOPT3 := false }
  else if s.currentExprNum ≤ s.reserved2 ∧ s.useTheBest = true ∧ s.enableOPT3 = false then
    { s with
      currentExprJITLevels := fill s.currentExprNum s.bestJITLevels s.currentExprJITLevels }
  else if s.useTheBest then
    { s with
      currentExprJITLevels := fill s.currentExprNum s.bestCurrentJITLevels s.currentExprJITLevels }
  else s

/-- One step of the search: the next vector, repeated from zero. -/
def decideLevels (cfg : Settings) (s : Search T) : Search T :=
  { applyBest (chooseLevels cfg s) with currentLevelsCount := 0 }

def repeatStatement (cfg : Settings) (s : Search T) : Search T :=
  let s := { s with
    countExpr := false, currentStatementExecNum := s.currentStatementExecNum + 1 }
  if s.currentStatementExecNum = 1 then
    -- the first repetition runs without JIT
    { s with
      currentExprJITLevels := fill s.currentExprNum (allAt 0) s.currentExprJITLevels
      currentLevelsCount := s.currentLevelsCount + 1 }
  else if cfg.reserved1 ≤ s.currentLevelsCount then decideLevels cfg s
  else { s with currentLevelsCount := s.currentLevelsCount + 1 }

/-- `exec_simple_query`, the level block up to the levels file of `testME`. -/
def execSimpleQuery (cfg : Settings) (mem : Malloc) (query : String) (s : Search T) : Search T :=
  if cfg.enableME then
    if s.currentStatement.any (sameText query) then
      if cfg.testME then s else repeatStatement cfg s
    else newStatement cfg mem query s
  else s

/-- The executor registers `count` new slots, each at level 0 (`jit_compile_expr`
with `testME` off). -/
def registerSlots (count : Nat) (s : Search T) : Search T :=
  { s with
    currentExprNum := s.currentExprNum + count
    currentExprJITLevels := fun i =>
      if s.currentExprNum ≤ i ∧ i < s.currentExprNum + count then stored 0
      else s.currentExprJITLevels i }

end Choose

section Measure

variable {T : Type} [Zero T] [LinearOrder T]

/-- Record the vector when the run is the first or the fastest so far. -/
def recordTotal (totaltime : T) (s : Search T) : Search T :=
  if s.minTotalTime = 0 ∨ totaltime < s.minTotalTime then
    { s with
      minTotalTime := totaltime
      bestJITLevels := fill s.currentExprNum s.currentExprJITLevels s.bestJITLevels }
  else s

/-- Drop the levels that cannot run beside level 3. -/
def keepOPT3 (s : Search T) : Search T :=
  { s with
    bestCurrentJITLevels := fun i =>
      if i < s.currentExprNum ∧ i ≠ s.reserved2 ∧ (s.bestCurrentJITLevels i).level ≠ 0 ∧
          (s.bestCurrentJITLevels i).level ≠ 3 then stored 0
      else s.bestCurrentJITLevels i }

def recordSlot (totaltime : T) (s : Search T) : Search T :=
  { s with
    minExprTime := totaltime
    bestCurrentJITLevels :=
      if s.reserved2 < s.currentExprNum then
        Function.update s.bestCurrentJITLevels s.reserved2 (s.currentExprJITLevels s.reserved2)
      else s.bestCurrentJITLevels }

/-- A run of a best vector is not recorded; any other run is when it is the
first or the fastest for the slot being varied. -/
def recordExpr (totaltime : T) (s : Search T) : Search T :=
  if s.useTheBest then { s with useTheBest := false }
  else if 3 ≤ s.reserved3 ∧ (s.minExprTime = 0 ∨ totaltime < s.minExprTime) then
    if s.enableOPT3 then keepOPT3 (recordSlot totaltime s) else recordSlot totaltime s
  else s

/-- `ExplainOnePlan`, the part after the run that took `totaltime`. -/
def explainOnePlan (cfg : Settings) (totaltime : T) (s : Search T) : Search T :=
  if cfg.enableME then recordExpr totaltime (recordTotal totaltime s) else s

end Measure

/-! ## One statement, issued over and over -/

/-- A statement issued over and over in a backend that starts at `start`:
`slots` expression slots are registered in the first run and none later, and
run number `n` takes `time n`. -/
structure Repetition (T : Type) where
  cfg : Settings
  mem : Malloc
  query : String
  start : Search T
  slots : Nat
  time : Nat → T

namespace Repetition

variable {T : Type} [Zero T] [LinearOrder T] (rep : Repetition T)

/-- The state while run number `n ≥ 1` executes. -/
def inRun : Nat → Search T
  | 0 => rep.start
  | 1 => registerSlots rep.slots (execSimpleQuery rep.cfg rep.mem rep.query rep.start)
  | n + 2 => execSimpleQuery rep.cfg rep.mem rep.query
      (explainOnePlan rep.cfg (rep.time (n + 1)) (inRun (n + 1)))

/-- The state after run number `n` was measured. -/
def afterRun (n : Nat) : Search T := explainOnePlan rep.cfg (rep.time n) (rep.inRun n)

/-- Run `n` takes the branch `currentLevelsCount >= Reserved1`. -/
def Decides (n : Nat) : Prop :=
  2 ≤ n ∧ (rep.afterRun (n - 1)).currentStatementExecNum + 1 ≠ 1 ∧
    rep.cfg.reserved1 ≤ (rep.afterRun (n - 1)).currentLevelsCount

instance : DecidablePred rep.Decides := fun _ => by unfold Decides; infer_instance

/-- What the claims about a search assume of the backend: the search is on,
the levels file is off, and the first issue starts a new search. -/
structure Searching : Prop where
  enableME : rep.cfg.enableME = true
  testME : rep.cfg.testME = false
  fresh : rep.start.currentStatement.any (sameText rep.query) = false

end Repetition

end Hex.Kernel.LevelSearch
