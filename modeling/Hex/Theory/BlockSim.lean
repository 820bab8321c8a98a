/-
# Theory.BlockSim — two ways to execute the same code

Code with blocks is executed by two machines that implement its instructions
differently. A relation between their states is carried through the code: for a
sequence through its parts, for a block to its end, and for an instruction from what
the two machines do for it. Assumptions about the run of the first machine are
guards: nothing is said about runs that stop at one.

* `Sim`: both machines end the code in the same way, in related states.
* `Meets`: both end the block around it, one maybe by running through and the other by
  a jump.
* `run_related`: what follows for flat programs.
-/
import Hex.Theory.BlockCode

namespace Hex.Theory.BlockCode

variable {ι σ σ' ε : Type}

/-! ## Guards -/

/-- Errors of the machine itself, next to those of a guard. -/
def Flow.lift : Flow σ ε → Flow σ (Option ε)
  | .next s => .next s
  | .jump j s => .jump j s
  | .done s => .done s
  | .fail e => .fail (some e)

def Outcome.lift : Outcome σ ε → Outcome σ (Option ε)
  | .finished s => .finished s
  | .failed e => .failed (some e)
  | .stuck => .stuck
  | .running => .running

lemma Outcome.lift_finished {o : Outcome σ ε} {s : σ} (eq : o.lift = .finished s) : o = .finished s := by
  cases o <;> cases eq
  rfl

lemma Outcome.lift_failed {o : Outcome σ ε} {e : ε} (eq : o.lift = .failed (some e)) : o = .failed e := by
  cases o <;> cases eq
  rfl

/-- Execute an instruction only where it is admissible. -/
def guarded (ok : ι → σ → Bool) (exec : ι → σ → Flow σ ε) (i : ι) (s : σ) : Flow σ (Option ε) :=
  if ok i s then (exec i s).lift else .fail none

def Admissible (ok : ι → σ → Bool) (exec : ι → σ → Flow σ ε) (prog : List (Instr ι (Option Nat))) (s : σ) : Prop :=
  run (guarded ok exec) prog prog.length 0 s ≠ .failed none

variable {ok : ι → σ → Bool} {exec : ι → σ → Flow σ ε} {exec' : ι → σ' → Flow σ' ε}

lemma run_guarded (prog : List (Instr ι (Option Nat))) (fuel pc : Nat) (s : σ) :
    run (guarded ok exec) prog fuel pc s = .failed none ∨
      run (guarded ok exec) prog fuel pc s = (run exec prog fuel pc s).lift := by
  induction fuel generalizing pc s with
  | zero => exact Or.inr rfl
  | succ fuel ih =>
    simp only [run]
    cases found : prog[pc]? with
    | none => exact Or.inr rfl
    | some i =>
      dsimp only
      cases admissible : ok i.op s with
      | false =>
        left
        simp [guarded, admissible]
      | true =>
        have step : guarded ok exec i.op s = (exec i.op s).lift := by simp [guarded, admissible]
        rw [step]
        cases flow : exec i.op s with
        | next s' => exact ih (pc + 1) s'
        | done | fail => exact Or.inr rfl
        | jump j s' =>
          simp only [Flow.lift]
          split
          · exact ih _ s'
          · exact Or.inr rfl

/-! ## Relations at the end of code -/

/-- How the states are related where code can end. -/
structure Post (σ σ' : Type) where
  next : σ → σ' → Prop
  exit : Nat → σ → σ' → Prop
  done : σ → σ' → Prop

/-- Code that only runs through. -/
def Post.through (N : σ → σ' → Prop) : Post σ σ' where
  next := N
  exit _ _ _ := False
  done _ _ := False

/-- Code that runs through, or leaves the block around it. -/
def Post.leaving (N E : σ → σ' → Prop) : Post σ σ' where
  next := N
  exit k s s' := k = 0 ∧ E s s'
  done _ _ := False

/-- A block around code ends where the code does, or where it is left. -/
def Post.inside (Q : Post σ σ') : Post σ σ' where
  next := Q.next
  exit k := match k with
    | 0 => Q.next
    | k + 1 => Q.exit k
  done := Q.done

structure Post.Le (Q R : Post σ σ') : Prop where
  next : ∀ s s', Q.next s s' → R.next s s'
  exit : ∀ k s s', Q.exit k s s' → R.exit k s s'
  done : ∀ s s', Q.done s s' → R.done s s'

lemma Post.through_le {N : σ → σ' → Prop} {Q : Post σ σ'} (next : ∀ s s', N s s' → Q.next s s') :
    (Post.through N).Le Q :=
  ⟨next, fun _ _ _ never => never.elim, fun _ _ never => never.elim⟩

/-- Both machines do the same for an instruction with the given labels. -/
def Flow.Related (labels : List Nat) (Q : Post σ σ') : Flow σ ε → Flow σ' ε → Prop
  | .next s, f => ∃ s', f = .next s' ∧ Q.next s s'
  | .jump j s, f => ∃ s' k, f = .jump j s' ∧ labels[j]? = some k ∧ Q.exit k s s'
  | .done s, f => ∃ s', f = .done s' ∧ Q.done s s'
  | .fail e, f => f = .fail e

/-- Both machines end code in the same way; nothing is said where a guard stopped the
first one. -/
def Result.Related (Q : Post σ σ') : Result σ (Option ε) → Result σ' ε → Prop
  | .next s, r => ∃ s', r = .next s' ∧ Q.next s s'
  | .exit k s, r => ∃ s', r = .exit k s' ∧ Q.exit k s s'
  | .done s, r => ∃ s', r = .done s' ∧ Q.done s s'
  | .fail (some e), r => r = .fail e
  | .fail none, _ => True
  | .stuck, _ => False

/-- Both machines end the block around code. -/
def Result.Meets (N : σ → σ' → Prop) : Result σ (Option ε) → Result σ' ε → Prop
  | .next s, r => ∃ s', (r = .next s' ∨ r = .exit 0 s') ∧ N s s'
  | .exit 0 s, r => ∃ s', (r = .next s' ∨ r = .exit 0 s') ∧ N s s'
  | .fail (some e), r => r = .fail e
  | .fail none, _ => True
  | _, _ => False

/-- The relation `P` is carried through the code to `Q`. -/
def Sim (ok : ι → σ → Bool) (exec : ι → σ → Flow σ ε) (exec' : ι → σ' → Flow σ' ε) (P : σ → σ' → Prop)
    (c : Code ι) (Q : Post σ σ') : Prop :=
  ∀ s s', P s s' → (eval (guarded ok exec) c s).Related Q (eval exec' c s')

/-- From `P` both machines end the block around the code, in states related by `N`. -/
def Meets (ok : ι → σ → Bool) (exec : ι → σ → Flow σ ε) (exec' : ι → σ' → Flow σ' ε) (P : σ → σ' → Prop)
    (c : Code ι) (N : σ → σ' → Prop) : Prop :=
  ∀ s s', P s s' → (eval (guarded ok exec) c s).Meets N (eval exec' c s')

/-! ## Rules -/

lemma Flow.Related.mono {labels : List Nat} {Q R : Post σ σ'} (le : Q.Le R) {f : Flow σ ε} {f' : Flow σ' ε}
    (related : f.Related labels Q f') : f.Related labels R f' := by
  cases f with
  | next s =>
    obtain ⟨s', ended, held⟩ := related
    exact ⟨s', ended, le.next s s' held⟩
  | jump j s =>
    obtain ⟨s', k, ended, label, held⟩ := related
    exact ⟨s', k, ended, label, le.exit k s s' held⟩
  | done s =>
    obtain ⟨s', ended, held⟩ := related
    exact ⟨s', ended, le.done s s' held⟩
  | fail e => exact related

lemma Result.Related.mono {Q R : Post σ σ'} (le : Q.Le R) {r : Result σ (Option ε)} {r' : Result σ' ε}
    (related : r.Related Q r') : r.Related R r' := by
  cases r with
  | next s =>
    obtain ⟨s', ended, held⟩ := related
    exact ⟨s', ended, le.next s s' held⟩
  | exit k s =>
    obtain ⟨s', ended, held⟩ := related
    exact ⟨s', ended, le.exit k s s' held⟩
  | done s =>
    obtain ⟨s', ended, held⟩ := related
    exact ⟨s', ended, le.done s s' held⟩
  | fail e => cases e <;> exact related
  | stuck => exact related

namespace Sim

variable {P M : σ → σ' → Prop} {Q R : Post σ σ'} {a b : Code ι}

lemma mono {P' : σ → σ' → Prop} (sim : Sim ok exec exec' P a Q) (pre : ∀ s s', P' s s' → P s s') (le : Q.Le R) :
    Sim ok exec exec' P' a R :=
  fun s s' start => (sim s s' (pre s s' start)).mono le

lemma skip (next : ∀ s s', P s s' → Q.next s s') : Sim ok exec exec' P .skip Q :=
  fun s s' start => ⟨s', rfl, next s s' start⟩

/-- An instruction, from what the machines do where it is admissible. -/
lemma instr {i : Instr ι Nat}
    (step : ∀ s s', P s s' → ok i.op s = true → (exec i.op s).Related i.labels Q (exec' i.op s')) :
    Sim ok exec exec' P (.instr i) Q := by
  intro s s' start
  cases admissible : ok i.op s with
  | false =>
    have stopped : eval (guarded ok exec) (.instr i) s = .fail none := by simp [eval, guarded, admissible]
    rw [stopped]
    trivial
  | true =>
    have related := step s s' start admissible
    have flow : guarded ok exec i.op s = (exec i.op s).lift := by simp [guarded, admissible]
    simp only [eval, flow]
    cases ran : exec i.op s with
    | next | done =>
      rw [ran] at related
      obtain ⟨t', ran', held⟩ := related
      rw [ran']
      exact ⟨t', rfl, held⟩
    | fail e =>
      rw [ran] at related
      have ran' : exec' i.op s' = .fail e := related
      rw [ran']
      rfl
    | jump j t =>
      rw [ran] at related
      obtain ⟨t', k, ran', label, held⟩ := related
      simp only [Flow.lift, ran', label]
      exact ⟨t', rfl, held⟩

lemma seq (first : Sim ok exec exec' P a { Q with next := M }) (second : Sim ok exec exec' M b Q) :
    Sim ok exec exec' P (.seq a b) Q := by
  intro s s' start
  have related := first s s' start
  simp only [eval]
  generalize eval (guarded ok exec) a s = r at related ⊢
  cases r with
  | next t =>
    obtain ⟨t', ran', held⟩ := related
    rw [ran']
    exact second t t' held
  | exit | done =>
    obtain ⟨t', ran', held⟩ := related
    rw [ran']
    exact ⟨t', rfl, held⟩
  | fail e =>
    cases e with
    | none => trivial
    | some e =>
      have ran' : eval exec' a s' = .fail e := related
      rw [ran']
      rfl
  | stuck =>
    exact related.elim

lemma block (inside : Sim ok exec exec' P a Q.inside) : Sim ok exec exec' P (.block a) Q := by
  intro s s' start
  have related := inside s s' start
  simp only [eval]
  generalize eval (guarded ok exec) a s = r at related ⊢
  cases r with
  | next | done =>
    obtain ⟨t', ran', held⟩ := related
    rw [ran']
    exact ⟨t', rfl, held⟩
  | exit k t =>
    obtain ⟨t', ran', held⟩ := related
    rw [ran']
    cases k <;> exact ⟨t', rfl, held⟩
  | fail e =>
    cases e with
    | none => trivial
    | some e =>
      have ran' : eval exec' a s' = .fail e := related
      rw [ran']
      rfl
  | stuck =>
    exact related.elim

end Sim

namespace Meets

variable {P M N : σ → σ' → Prop} {a b : Code ι}

lemma mono {N' : σ → σ' → Prop} (meets : Meets ok exec exec' P a N) (next : ∀ s s', N s s' → N' s s') :
    Meets ok exec exec' P a N' := by
  intro s s' start
  have ended := meets s s' start
  generalize eval (guarded ok exec) a s = r at ended ⊢
  cases r with
  | next t =>
    obtain ⟨t', ran', held⟩ := ended
    exact ⟨t', ran', next t t' held⟩
  | exit k t =>
    cases k with
    | zero =>
      obtain ⟨t', ran', held⟩ := ended
      exact ⟨t', ran', next t t' held⟩
    | succ k => exact ended.elim
  | done | stuck =>
    exact ended.elim
  | fail e =>
    cases e <;> exact ended

/-- An instruction at the end of a block that one machine may leave by a jump. -/
lemma instr {i : Instr ι Nat} (label : i.labels[0]? = some 0)
    (step : ∀ s s', P s s' → ok i.op s = true → ∃ t t', N t t' ∧
      (exec i.op s = .next t ∨ exec i.op s = .jump 0 t) ∧ (exec' i.op s' = .next t' ∨ exec' i.op s' = .jump 0 t')) :
    Meets ok exec exec' P (.seq (.instr i) .skip) N := by
  intro s s' start
  cases admissible : ok i.op s with
  | false =>
    have stopped : eval (guarded ok exec) (.seq (.instr i) .skip) s = .fail none := by
      simp [eval, guarded, admissible]
    rw [stopped]
    trivial
  | true =>
    obtain ⟨t, t', held, ran, ran'⟩ := step s s' start admissible
    have flow : guarded ok exec i.op s = (exec i.op s).lift := by simp [guarded, admissible]
    have ended : eval exec' (.seq (.instr i) .skip) s' = .next t' ∨
        eval exec' (.seq (.instr i) .skip) s' = .exit 0 t' := by
      rcases ran' with ran' | ran' <;> simp [eval, ran', label]
    rcases ran with ran | ran <;> simp only [eval, flow, ran, Flow.lift, label] <;> exact ⟨t', ended, held⟩

/-- The first part runs through to `M`, or ends the block. -/
lemma seq (first : Sim ok exec exec' P a (Post.leaving M N)) (second : Meets ok exec exec' M b N) :
    Meets ok exec exec' P (.seq a b) N := by
  intro s s' start
  have related := first s s' start
  simp only [eval]
  generalize eval (guarded ok exec) a s = r at related ⊢
  cases r with
  | next t =>
    obtain ⟨t', ran', held⟩ := related
    rw [ran']
    exact second t t' held
  | exit k t =>
    obtain ⟨t', ran', rfl, held⟩ := related
    rw [ran']
    exact ⟨t', Or.inr rfl, held⟩
  | done t =>
    obtain ⟨t', _, never⟩ := related
    exact never.elim
  | fail e =>
    cases e with
    | none => trivial
    | some e =>
      have ran' : eval exec' a s' = .fail e := related
      rw [ran']
      rfl
  | stuck =>
    exact related.elim

lemma block {Q : Post σ σ'} (inside : Meets ok exec exec' P a N) (next : ∀ s s', N s s' → Q.next s s') :
    Sim ok exec exec' P (.block a) Q := by
  intro s s' start
  have meets := inside s s' start
  simp only [eval]
  generalize eval (guarded ok exec) a s = r at meets ⊢
  cases r with
  | next t =>
    obtain ⟨t', ran' | ran', held⟩ := meets <;> rw [ran'] <;> exact ⟨t', rfl, next t t' held⟩
  | exit k t =>
    cases k with
    | zero => obtain ⟨t', ran' | ran', held⟩ := meets <;> rw [ran'] <;> exact ⟨t', rfl, next t t' held⟩
    | succ k => exact meets.elim
  | done | stuck =>
    exact meets.elim
  | fail e =>
    cases e with
    | none => trivial
    | some e =>
      have ran' : eval exec' a s' = .fail e := meets
      rw [ran']
      rfl

end Meets

/-! ## Flat programs -/

/-- **Both machines run the flat program to the same end**, if the run of the first one is
admissible and the code cannot run off its end. -/
theorem run_related {P F : σ → σ' → Prop} {c : Code ι}
    (sim : Sim ok exec exec' P c { next := fun _ _ => False, exit := fun _ _ _ => False, done := F })
    {s : σ} {s' : σ'} (start : P s s') (admissible : Admissible ok exec (c.flatten 0 []) s) :
    (∃ t t', run exec (c.flatten 0 []) (c.flatten 0 []).length 0 s = .finished t ∧
      run exec' (c.flatten 0 []) (c.flatten 0 []).length 0 s' = .finished t' ∧ F t t') ∨
    (∃ e, run exec (c.flatten 0 []) (c.flatten 0 []).length 0 s = .failed e ∧
      run exec' (c.flatten 0 []) (c.flatten 0 []).length 0 s' = .failed e) := by
  have related := sim s s' start
  have lifted := (run_guarded (c.flatten 0 []) (c.flatten 0 []).length 0 s).resolve_left admissible
  cases ran : eval (guarded ok exec) c s with
  | next | exit =>
    rw [ran] at related
    obtain ⟨_, _, never⟩ := related
    exact never.elim
  | stuck =>
    rw [ran] at related
    exact related.elim
  | done t =>
    rw [ran] at related
    obtain ⟨t', ran', held⟩ := related
    rw [run_of_done ran] at lifted
    exact Or.inl ⟨t, t', Outcome.lift_finished lifted.symm, run_of_done ran', held⟩
  | fail e =>
    rw [ran] at related
    rw [run_of_fail ran] at lifted
    cases e with
    | none => exact absurd (run_of_fail ran) admissible
    | some e => exact Or.inr ⟨e, Outcome.lift_failed lifted.symm, run_of_fail related⟩

end Hex.Theory.BlockCode
