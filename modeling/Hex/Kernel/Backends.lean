/-
# Kernel.Backends — many backends, one file of expressions

A server is started by a process that enters the expressions of a file in its
table (`CreateSharedMemoryAndSemaphores`, storage/ipc/ipci.c). Every backend is
forked from it: the table lies in memory of the process, so each backend numbers
its expressions in a copy of its own, and all of them append to one file.

A `History` lists what the backends do while the databases are served one after
another; within a database the calls of its backends interleave in any order.
`serve` runs it: the tables, the lines of the file with their numbers and steps,
and the numbers that get into `report.csv` with the steps the backend means.
-/
import Hex.Kernel.ExprFile
import Hex.Theory.FallibleLoop

namespace Hex.Kernel.Backends

open ExprTable ExprFile OpNames Theory.FallibleLoop

/-- A backend hands an expression to `add_expression`, and may write the number
it gets to `report.csv`. -/
structure Event where
  backend : Nat
  steps : List Int
  reported : Bool

/-- A number in `report.csv`, with the steps its backend has under it. -/
structure Report where
  database : Nat
  id : Nat
  steps : List Int
  deriving DecidableEq

/-- The start of the server, and what happens at each of its databases. -/
structure History where
  preload : List (List Int)
  databases : List (List Event)

structure Served where
  tables : Nat → Table
  lines : List (Nat × List Int)
  reports : List Report

/-- The line a call appends, with its number. -/
def newLine (t t' : Table) (steps : List Int) : List (Nat × List Int) :=
  if t'.exprNum = t.exprNum then [] else [(t'.exprNum, steps)]

def newReport (database : Nat) (e : Event) (t : Table) (entry : Option Nat) : List Report :=
  match entry with
  | some i =>
    if e.reported then [⟨database, (t.exprTypes i).expressionId, (t.exprTypes i).stepList⟩] else []
  | none => []

def handle (database : Nat) (s : Served) (e : Event) : Option Served :=
  match addExpression (s.tables e.backend) e.steps with
  | none => none
  | some (t, entry) => some
      { tables := Function.update s.tables e.backend t
        lines := s.lines ++ newLine (s.tables e.backend) t e.steps
        reports := s.reports ++ newReport database e t entry }

def serveDatabase (parent : Table) (s : Served) (phase : List Event × Nat) : Option Served :=
  phase.1.foldlM (handle phase.2) { s with tables := fun _ => parent }

/-- The start of the server: its first process enters the expressions of its file. -/
def start (garbage : Nat → Nat → Int) (preload : List (List Int)) : Option Served :=
  preload.foldlM (fun s steps => handle 0 s ⟨0, steps, false⟩) ⟨fun _ => initial garbage, [], []⟩

def serve (garbage : Nat → Nat → Int) (h : History) : Option Served :=
  match start garbage h.preload with
  | none => none
  | some s => h.databases.zipIdx.foldlM (serveDatabase (s.tables 0)) s

/-! ## What every history keeps -/

def CodesOnly (t : Table) : Prop := ∀ i, ∀ step ∈ (t.exprTypes i).stepList, IsCode step

structure Proper (t : Table) : Prop where
  sound : Sound t
  codes : CodesOnly t

lemma proper_initial (garbage : Nat → Nat → Int) : Proper (initial garbage) := by
  refine ⟨sound_initial garbage, fun i step member => ?_⟩
  simp [initial, initializeExprStepsList, ExprSteps.stepList] at member

lemma Proper.addExpression {t t' : Table} {steps : List Int} {entry : Option Nat}
    (proper : Proper t) (sequence : IsSequence steps) (ran : addExpression t steps = some (t', entry)) : Proper t' := by
  refine ⟨proper.sound.addExpression ran, ?_⟩
  obtain ⟨_, rfl | rfl | ⟨i, _, rfl⟩⟩ := addExpression_inv proper.sound ran
  · exact proper.codes
  · exact proper.codes
  · intro j step member
    by_cases new : j = i
    · rw [new, stepList_store] at member
      exact sequence.2.2 step member
    · simp only [store, Function.update_of_ne new] at member
      exact proper.codes j step member

/-- What holds after every call of a history. -/
structure Consistent (s : Served) : Prop where
  proper : ∀ b, Proper (s.tables b)
  first : ∀ line ∈ s.lines.head?, line.1 = 1
  fresh : s.lines = [] → ∀ b, (s.tables b).exprNum = 0
  sequences : ∀ line ∈ s.lines, IsSequence line.2
  codes : ∀ r ∈ s.reports, ∀ step ∈ r.steps, IsCode step

lemma consistent_initial (garbage : Nat → Nat → Int) : Consistent ⟨fun _ => initial garbage, [], []⟩ where
  proper _ := proper_initial garbage
  first := by simp
  fresh _ _ := rfl
  sequences := by simp
  codes := by simp

lemma newLine_cases {t t' : Table} {steps : List Int} {entry : Option Nat} (sound : Sound t)
    (ran : addExpression t steps = some (t', entry)) :
    (newLine t t' steps = [] ∧ t'.exprNum = t.exprNum) ∨ newLine t t' steps = [(t.exprNum + 1, steps)] := by
  obtain ⟨_, rfl | rfl | ⟨i, _, rfl⟩⟩ := addExpression_inv sound ran
  · exact .inl ⟨if_pos rfl, rfl⟩
  · exact .inl ⟨if_pos rfl, rfl⟩
  · exact .inr (if_neg (Nat.succ_ne_self _))

/-- **One call keeps it.** -/
theorem Consistent.handle {database : Nat} {s s' : Served} {e : Event} (consistent : Consistent s)
    (sequence : IsSequence e.steps) (ran : handle database s e = some s') : Consistent s' := by
  unfold Backends.handle at ran
  split at ran
  · cases ran
  · rename_i t entry added
    cases ran
    have proper := (consistent.proper e.backend).addExpression sequence added
    refine ⟨fun b => ?_, ?_, ?_, ?_, ?_⟩
    · by_cases same : b = e.backend
      · simpa [same] using proper
      · simpa [Function.update_of_ne same] using consistent.proper b
    · intro line member
      cases before : s.lines with
      | cons l rest =>
        rw [before] at member
        exact consistent.first line (by simpa [before] using member)
      | nil =>
        -- the table of the backend is empty too: its first line has number 1
        rw [before, List.nil_append] at member
        obtain ⟨none, _⟩ | one := newLine_cases (consistent.proper e.backend).sound added
        · simp [none] at member
        · rw [one, consistent.fresh before e.backend] at member
          simp only [List.head?_cons, Option.mem_def, Option.some.injEq] at member
          rw [← member]
    · intro empty b
      simp only [List.append_eq_nil_iff] at empty
      by_cases same : b = e.backend
      · obtain ⟨_, count⟩ | one := newLine_cases (consistent.proper e.backend).sound added
        · simpa [same, count] using consistent.fresh empty.1 e.backend
        · simp [one] at empty
      · simpa [Function.update_of_ne same] using consistent.fresh empty.1 b
    · intro line member
      obtain old | new := List.mem_append.mp member
      · exact consistent.sequences line old
      · unfold newLine at new
        split at new
        · cases new
        · rw [List.mem_singleton.mp new]
          exact sequence
    · intro r member
      obtain old | new := List.mem_append.mp member
      · exact consistent.codes r old
      · unfold newReport at new
        split at new
        · split at new
          · rw [List.mem_singleton.mp new]
            exact proper.codes _
          · cases new
        · cases new

/-- The sequences of a history are sequences an expression can have. -/
def History.Valid (h : History) : Prop :=
  (∀ steps ∈ h.preload, IsSequence steps) ∧ ∀ phase ∈ h.databases, ∀ e ∈ phase, IsSequence e.steps

lemma handle_lines {database : Nat} {s s' : Served} {e : Event}
    (ran : handle database s e = some s') : s.lines ≠ [] → s'.lines ≠ [] := by
  unfold handle at ran
  split at ran
  · cases ran
  · cases ran
    intro some
    simp [some]

/-- **Every history keeps it.** -/
theorem consistent_serve {garbage : Nat → Nat → Int} {h : History} {served : Served}
    (valid : h.Valid) (ran : serve garbage h = some served) : Consistent served := by
  unfold serve at ran
  split at ran
  · cases ran
  · rename_i started begun
    have first : Consistent started := foldlM_invariant
      (fun s steps s' member consistent step => consistent.handle (valid.1 steps member) step)
      (consistent_initial garbage) begun
    -- the parent's table stays the one at the start: it is empty while no line is written
    have kept := foldlM_invariant (P := fun s =>
      Consistent s ∧ (s.lines = [] → (started.tables 0).exprNum = 0))
      (fun s phase s' member holds step => ?_) ⟨first, fun none => first.fresh none 0⟩ ran
    · exact kept.1
    · have events : ∀ e ∈ phase.1, IsSequence e.steps :=
        valid.2 phase.1 (List.fst_mem_of_mem_zipIdx member)
      have forked : Consistent { s with tables := fun _ => started.tables 0 } :=
        ⟨fun _ => first.proper 0, holds.1.first, fun none _ => holds.2 none, holds.1.sequences,
          holds.1.codes⟩
      refine foldlM_invariant (P := fun s => Consistent s ∧
        (s.lines = [] → (started.tables 0).exprNum = 0)) (fun s e s' inPhase now call => ?_)
        ⟨forked, holds.2⟩ step
      refine ⟨now.1.handle (events e inPhase) call, fun none => now.2 ?_⟩
      by_contra some
      exact handle_lines call some none

end Hex.Kernel.Backends
