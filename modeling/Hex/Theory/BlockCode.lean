/-
# Theory.BlockCode — blocks with exits, and flat programs with jumps

A program for a machine that counts its instructions is a list of instructions
whose labels are positions in the list. Where every jump goes forward, to the end
of a piece of code around it, the same program can be written with *blocks*: a
label is then the number of blocks to leave. This module relates the two. The
instructions `ι`, the states `σ` and the errors `ε` are arbitrary, and so is the
function that executes one instruction.
-/
import Mathlib.Tactic.Common
import Mathlib.Data.List.Basic

namespace Hex.Theory.BlockCode

/-- What the execution of one instruction leads to; `jump i` takes its `i`-th label. -/
inductive Flow (σ ε : Type) where
  | next (s : σ)
  | jump (i : Nat) (s : σ)
  | done (s : σ)
  | fail (e : ε)

structure Instr (ι L : Type) where
  op : ι
  labels : List L

/-- Code with blocks; a label is the number of blocks around the instruction that
the jump stays inside of. -/
inductive Code (ι : Type) where
  | skip
  | instr (i : Instr ι Nat)
  | seq (a b : Code ι)
  | block (body : Code ι)

/-- How a piece of code ends. -/
inductive Result (σ ε : Type) where
  | next (s : σ)
  | exit (k : Nat) (s : σ)
  | done (s : σ)
  | fail (e : ε)
  | stuck

/-- How a run of a flat program ends; `running` when the fuel is used up. -/
inductive Outcome (σ ε : Type) where
  | finished (s : σ)
  | failed (e : ε)
  | stuck
  | running

namespace Code

variable {ι : Type} {c : Code ι} {P : Instr ι Nat → Prop}

def op (i : ι) : Code ι := .instr { op := i, labels := [] }

def size : Code ι → Nat
  | .skip => 0
  | .instr _ => 1
  | .seq a b => a.size + b.size
  | .block body => body.size

/-- The flat form of code that starts at position `off`; `exits` are the positions
behind the blocks around it, as far as they are known. -/
def flatten : Code ι → Nat → List (Option Nat) → List (Instr ι (Option Nat))
  | .skip, _, _ => []
  | .instr i, _, exits => [{ op := i.op, labels := i.labels.map fun k => exits[k]?.join }]
  | .seq a b, off, exits => a.flatten off exits ++ b.flatten (off + a.size) exits
  | .block body, off, exits => body.flatten off (some (off + body.size) :: exits)

/-- All labels stay below `d`: the code leaves at most `d` of the blocks around it. -/
def Closed : Nat → Code ι → Prop
  | _, .skip => True
  | d, .instr i => ∀ k ∈ i.labels, k < d
  | d, .seq a b => a.Closed d ∧ b.Closed d
  | d, .block body => body.Closed (d + 1)

def Each (P : Instr ι Nat → Prop) : Code ι → Prop
  | .skip => True
  | .instr i => P i
  | .seq a b => a.Each P ∧ b.Each P
  | .block body => body.Each P

@[simp] lemma size_skip : (Code.skip : Code ι).size = 0 := rfl
@[simp] lemma size_instr (i : Instr ι Nat) : (Code.instr i).size = 1 := rfl
@[simp] lemma size_op (i : ι) : (Code.op i).size = 1 := rfl
@[simp] lemma size_seq (a b : Code ι) : (Code.seq a b).size = a.size + b.size := rfl
@[simp] lemma size_block (body : Code ι) : (Code.block body).size = body.size := rfl

@[simp] lemma closed_skip (d : Nat) : (Code.skip : Code ι).Closed d := trivial
@[simp] lemma closed_instr (d : Nat) (i : Instr ι Nat) : (Code.instr i).Closed d ↔ ∀ k ∈ i.labels, k < d := Iff.rfl
@[simp] lemma closed_op (d : Nat) (i : ι) : (Code.op i).Closed d := by simp [op]
@[simp] lemma closed_seq (d : Nat) (a b : Code ι) : (Code.seq a b).Closed d ↔ a.Closed d ∧ b.Closed d := Iff.rfl
@[simp] lemma closed_block (d : Nat) (body : Code ι) : (Code.block body).Closed d ↔ body.Closed (d + 1) := Iff.rfl

lemma Closed.mono {d d' : Nat} (closed : c.Closed d) (le : d ≤ d') : c.Closed d' := by
  induction c generalizing d d' with
  | skip => trivial
  | instr i => exact fun k member => Nat.lt_of_lt_of_le (closed k member) le
  | seq a b iha ihb => exact ⟨iha closed.1 le, ihb closed.2 le⟩
  | block body ih => exact ih closed (Nat.succ_le_succ le)

@[simp] lemma length_flatten (c : Code ι) (off : Nat) (exits : List (Option Nat)) :
    (c.flatten off exits).length = c.size := by
  induction c generalizing off exits with
  | skip => rfl
  | instr i => rfl
  | seq a b iha ihb => simp [flatten, iha, ihb]
  | block body ih => simp [flatten, ih]

/-- Only the blocks that the code leaves matter for its flat form. -/
lemma flatten_congr {d : Nat} (closed : c.Closed d) (off : Nat)
    {exits exits' : List (Option Nat)} (same : ∀ k < d, exits[k]? = exits'[k]?) :
    c.flatten off exits = c.flatten off exits' := by
  induction c generalizing d off exits exits' with
  | skip => rfl
  | instr i =>
    have labels : ∀ k ∈ i.labels, exits[k]?.join = exits'[k]?.join := by
      intro k member
      rw [same k (closed k member)]
    simp only [flatten, List.map_congr_left labels]
  | seq a b iha ihb =>
    simp only [flatten]
    rw [iha closed.1 off same, ihb closed.2 _ same]
  | block body ih =>
    refine ih closed off fun k hk => ?_
    cases k with
    | zero => rfl
    | succ k => simpa using same k (Nat.lt_of_succ_lt_succ hk)

lemma flatten_closed (closed : c.Closed 0) (off : Nat) (exits : List (Option Nat)) :
    c.flatten off exits = c.flatten off [] :=
  flatten_congr closed off fun k hk => absurd hk (Nat.not_lt_zero k)

/-- What holds for the instructions holds for those of the flat form, with as many labels. -/
lemma Each.imp {Q : Instr ι Nat → Prop} (holds : ∀ i, P i → Q i) : ∀ {c : Code ι}, c.Each P → c.Each Q
  | .skip, _ => trivial
  | .instr i, each => holds i each
  | .seq _ _, each => ⟨each.1.imp holds, each.2.imp holds⟩
  | .block body, each => Each.imp (c := body) holds each

lemma each_flatten (each : c.Each P) (off : Nat) (exits : List (Option Nat)) :
    ∀ i ∈ c.flatten off exits, ∃ j, P j ∧ j.op = i.op ∧ j.labels.length = i.labels.length := by
  induction c generalizing off exits with
  | skip => exact fun i member => absurd member List.not_mem_nil
  | instr j =>
    intro i member
    rw [List.mem_singleton.mp member]
    exact ⟨j, each, rfl, (List.length_map _).symm⟩
  | seq a b iha ihb =>
    intro i member
    rcases List.mem_append.mp member with left | right
    · exact iha each.1 _ _ i left
    · exact ihb each.2 _ _ i right
  | block body ih => exact fun i member => ih each _ _ i member

/-- **Jumps go forward**: in the flat form of code that leaves only known blocks, every label
is a later position, at most the end of the code or one of the exits. -/
theorem flatten_forward {exits : List Nat} (closed : c.Closed exits.length) (off : Nat)
    (ahead : ∀ t ∈ exits, off + c.size ≤ t) (pc : Nat) (i : Instr ι (Option Nat))
    (here : (c.flatten off (exits.map some))[pc]? = some i) :
    ∀ label ∈ i.labels, ∃ t, label = some t ∧ off + pc < t ∧ (t ≤ off + c.size ∨ t ∈ exits) := by
  induction c generalizing exits off pc with
  | skip => simp [flatten] at here
  | instr j =>
    obtain ⟨rfl, rfl⟩ : pc = 0 ∧ i = _ := by
      cases pc with
      | zero => simpa [flatten, eq_comm] using here
      | succ pc => simp [flatten] at here
    intro label member
    obtain ⟨k, inside, rfl⟩ := List.mem_map.mp member
    have known : exits[k]? = some (exits.get ⟨k, closed k inside⟩) := List.getElem?_eq_getElem _
    have target := List.mem_of_getElem? known
    refine ⟨exits.get ⟨k, closed k inside⟩, by simp [known], ?_, Or.inr target⟩
    have behind := ahead _ target
    rw [size_instr] at behind
    omega
  | seq a b iha ihb =>
    simp only [size_seq] at ahead ⊢
    intro label member
    by_cases first : pc < a.size
    · rw [flatten, List.getElem?_append_left (by simpa using first)] at here
      obtain ⟨t, eq, later, target⟩ :=
        iha closed.1 off (fun t inside => by have := ahead t inside; omega) pc here label member
      exact ⟨t, eq, later, target.imp (by omega) id⟩
    · obtain ⟨rest, rfl⟩ := Nat.exists_eq_add_of_le (Nat.not_lt.mp first)
      rw [flatten, List.getElem?_append_right (by simp), length_flatten, Nat.add_sub_cancel_left] at here
      obtain ⟨t, eq, later, target⟩ :=
        ihb closed.2 (off + a.size) (fun t inside => by have := ahead t inside; omega) rest here label member
      exact ⟨t, eq, by omega, target.imp (by omega) id⟩
  | block body ih =>
    intro label member
    -- the end of the block is an exit of its body
    have inner : ∀ t ∈ (off + body.size) :: exits, off + body.size ≤ t :=
      List.forall_mem_cons.mpr ⟨Nat.le_refl _, ahead⟩
    obtain ⟨t, eq, later, target⟩ := ih closed off inner pc here label member
    refine ⟨t, eq, later, ?_⟩
    rcases target with within | exit
    · exact Or.inl within
    · rcases List.mem_cons.mp exit with rfl | exit
      · exact Or.inl (Nat.le_refl _)
      · exact Or.inr exit

end Code

/-! ## Meaning -/

section Run

variable {ι σ ε : Type} (exec : ι → σ → Flow σ ε) {pc off : Nat} {s s' : σ} {out : Outcome σ ε}

def eval : Code ι → σ → Result σ ε
  | .skip, s => .next s
  | .instr i, s =>
    match exec i.op s with
    | .next s => .next s
    | .jump j s =>
      match i.labels[j]? with
      | some k => .exit k s
      | none => .stuck
    | .done s => .done s
    | .fail e => .fail e
  | .seq a b, s =>
    match eval a s with
    | .next s => eval b s
    | r => r
  | .block body, s =>
    match eval body s with
    | .exit 0 s => .next s
    | .exit (k + 1) s => .exit k s
    | r => r

/-- The run of a flat program from position `pc`. -/
def run (prog : List (Instr ι (Option Nat))) : Nat → Nat → σ → Outcome σ ε
  | 0, _, _ => .running
  | fuel + 1, pc, s =>
    match prog[pc]? with
    | none => .stuck
    | some i =>
      match exec i.op s with
      | .next s => run prog fuel (pc + 1) s
      | .jump j s =>
        match i.labels[j]? with
        | some (some target) => run prog fuel target s
        | _ => .stuck
      | .done s => .finished s
      | .fail e => .failed e

variable (prog : List (Instr ι (Option Nat)))

/-- The run comes from `pc` to `pc'`, in no more steps than it moves ahead. -/
def Reaches (pc : Nat) (s : σ) (pc' : Nat) (s' : σ) : Prop :=
  ∃ k, k + pc ≤ pc' ∧ ∀ fuel, run exec prog (fuel + k) pc s = run exec prog fuel pc' s'

/-- The run from `pc` ends before position `last`. -/
def Ends (pc : Nat) (s : σ) (last : Nat) (out : Outcome σ ε) : Prop :=
  ∃ k, k + pc ≤ last ∧ ∀ fuel, run exec prog (fuel + k) pc s = out

/-- The program has the instructions `code` at position `off`. -/
def Holds (off : Nat) (code : List (Instr ι (Option Nat))) : Prop :=
  ∀ i < code.length, prog[off + i]? = code[i]?

variable {exec prog}

lemma Reaches.refl (pc : Nat) (s : σ) : Reaches exec prog pc s pc s :=
  ⟨0, by omega, fun _ => rfl⟩

lemma Reaches.trans {pc' pc'' : Nat} {s'' : σ} (first : Reaches exec prog pc s pc' s')
    (second : Reaches exec prog pc' s' pc'' s'') : Reaches exec prog pc s pc'' s'' := by
  obtain ⟨k, le, ran⟩ := first
  obtain ⟨k', le', ran'⟩ := second
  refine ⟨k' + k, by omega, fun fuel => ?_⟩
  rw [← Nat.add_assoc, ran, ran']

lemma Reaches.ends {pc' last : Nat}
    (first : Reaches exec prog pc s pc' s') (second : Ends exec prog pc' s' last out) :
    Ends exec prog pc s last out := by
  obtain ⟨k, le, ran⟩ := first
  obtain ⟨k', le', ran'⟩ := second
  refine ⟨k' + k, by omega, fun fuel => ?_⟩
  rw [← Nat.add_assoc, ran, ran']

lemma Ends.mono {last last' : Nat}
    (ends : Ends exec prog pc s last out) (le : last ≤ last') : Ends exec prog pc s last' out := by
  obtain ⟨k, bound, ran⟩ := ends
  exact ⟨k, Nat.le_trans bound le, ran⟩

lemma holds_append {a b : List (Instr ι (Option Nat))} :
    Holds prog off (a ++ b) ↔ Holds prog off a ∧ Holds prog (off + a.length) b := by
  constructor
  · intro holds
    refine ⟨fun i hi => ?_, fun i hi => ?_⟩
    · rw [holds i (by rw [List.length_append]; omega), List.getElem?_append_left hi]
    · rw [Nat.add_assoc, holds (a.length + i) (by rw [List.length_append]; omega),
        List.getElem?_append_right (Nat.le_add_right _ _), Nat.add_sub_cancel_left]
  · rintro ⟨first, second⟩ i hi
    by_cases left : i < a.length
    · rw [first i left, List.getElem?_append_left left]
    · obtain ⟨j, rfl⟩ := Nat.exists_eq_add_of_le (Nat.not_lt.mp left)
      rw [List.length_append] at hi
      rw [← Nat.add_assoc, second j (by omega), List.getElem?_append_right (Nat.le_add_right _ _),
        Nat.add_sub_cancel_left]

lemma holds_self : Holds prog 0 prog := fun i _ => by rw [Nat.zero_add]

lemma Holds.head {i : Instr ι (Option Nat)} (holds : Holds prog off [i]) : prog[off]? = some i := by
  simpa using holds 0 (by simp)

/-- What a result of code at `off` of the given size means for the flat program. -/
def Simulates (exec : ι → σ → Flow σ ε) (prog : List (Instr ι (Option Nat))) (off last : Nat)
    (exits : List Nat) (s : σ) : Result σ ε → Prop
  | .next s' => Reaches exec prog off s last s'
  | .exit k s' => ∀ target, exits[k]? = some target → Reaches exec prog off s target s'
  | .done s' => Ends exec prog off s last (.finished s')
  | .fail e => Ends exec prog off s last (.failed e)
  | .stuck => True

lemma simulates_instr {i : Instr ι Nat} {exits : List Nat} (s : σ)
    (holds : Holds prog off ((Code.instr i).flatten off (exits.map some)))
    (ahead : ∀ target ∈ exits, off + 1 ≤ target) :
    Simulates exec prog off (off + 1) exits s (eval exec (.instr i) s) := by
  have here := holds.head
  have one (fuel : Nat) : run exec prog (fuel + 1) off s = match exec i.op s with
      | .next s => run exec prog fuel (off + 1) s
      | .jump j s =>
        match (i.labels.map fun k => (exits.map some)[k]?.join)[j]? with
        | some (some target) => run exec prog fuel target s
        | _ => .stuck
      | .done s => .finished s
      | .fail e => .failed e := by
    simp only [run, here]
  cases flow : exec i.op s with
  | next | done | fail =>
    simp only [eval, flow]
    exact ⟨1, by omega, fun fuel => by rw [one, flow]⟩
  | jump j s' =>
    simp only [eval, flow]
    cases label : i.labels[j]? with
    | none => trivial
    | some k =>
      intro target known
      have le := ahead target (List.mem_of_getElem? known)
      refine ⟨1, by omega, fun fuel => ?_⟩
      rw [one, flow]
      simp [label, known]

/-- **The flat form computes what the blocks mean.** -/
theorem simulates_eval (c : Code ι) : ∀ (off : Nat) (exits : List Nat) (s : σ),
    Holds prog off (c.flatten off (exits.map some)) → (∀ target ∈ exits, off + c.size ≤ target) →
    Simulates exec prog off (off + c.size) exits s (eval exec c s) := by
  induction c with
  | skip => exact fun off _ s _ _ => Reaches.refl off s
  | instr i => exact fun off exits s holds ahead => simulates_instr s holds ahead
  | seq a b iha ihb =>
    intro off exits s holds ahead
    simp only [Code.flatten, holds_append, Code.length_flatten] at holds
    simp only [Code.size_seq] at ahead ⊢
    have first := iha off exits s holds.1 fun t member => by have := ahead t member; omega
    simp only [eval]
    cases result : eval exec a s with
    | next s' =>
      rw [result] at first
      have second := ihb (off + a.size) exits s' holds.2 fun t member => by have := ahead t member; omega
      rw [Nat.add_assoc] at second
      dsimp only
      cases result' : eval exec b s' with
      | next s'' =>
        rw [result'] at second
        exact first.trans second
      | exit k s'' =>
        rw [result'] at second
        exact fun target known => first.trans (second target known)
      | done | fail =>
        rw [result'] at second
        exact first.ends second
      | stuck => trivial
    | exit k s' => rwa [result] at first
    | done | fail =>
      rw [result] at first
      exact first.mono (by omega)
    | stuck => trivial
  | block body ih =>
    intro off exits s holds ahead
    -- the end of the block is the first of the exits of its body
    have inside := ih off ((off + body.size) :: exits) s holds fun t member => by
      rcases List.mem_cons.mp member with rfl | member
      · exact Nat.le_refl _
      · exact ahead t member
    simp only [eval, Code.size_block]
    cases result : eval exec body s with
    | exit k s' =>
      rw [result] at inside
      cases k with
      | zero => exact inside _ rfl
      | succ k => exact fun target known => inside target (by simpa using known)
    | next | done | fail => rwa [result] at inside
    | stuck => trivial

/-- The run of a whole program, with one unit of fuel for each instruction. -/
lemma run_flatten (c : Code ι) (s : σ) : Simulates exec (c.flatten 0 []) 0 c.size [] s (eval exec c s) := by
  have all := @simulates_eval _ _ _ exec _ c 0 [] s holds_self (by simp)
  rwa [Nat.zero_add] at all

lemma Ends.run {last fuel : Nat} (ends : Ends exec prog pc s last out)
    (enough : last ≤ pc + fuel) : BlockCode.run exec prog fuel pc s = out := by
  obtain ⟨k, le, ran⟩ := ends
  obtain ⟨rest, rfl⟩ := Nat.exists_eq_add_of_le (show k ≤ fuel by omega)
  rw [Nat.add_comm, ran]

/-- A flat program ends as its code does; one unit of fuel for each instruction is enough. -/
lemma run_of_done {c : Code ι} (ends : eval exec c s = .done s') :
    run exec (c.flatten 0 []) (c.flatten 0 []).length 0 s = .finished s' := by
  have simulated := @run_flatten _ _ _ exec c s
  rw [ends] at simulated
  exact Ends.run simulated (by simp)

lemma run_of_fail {c : Code ι} {e : ε} (ends : eval exec c s = .fail e) :
    run exec (c.flatten 0 []) (c.flatten 0 []).length 0 s = .failed e := by
  have simulated := @run_flatten _ _ _ exec c s
  rw [ends] at simulated
  exact Ends.run simulated (by simp)

/-- How code ends that leaves at most `d` of the blocks around it; it is not stuck. -/
def Result.Within (d : Nat) : Result σ ε → Prop
  | .exit k _ => k < d
  | .stuck => False
  | _ => True

lemma eval_within {c : Code ι} {d : Nat} (s : σ) (closed : c.Closed d)
    (labelled : c.Each fun i => ∀ s j s', exec i.op s = .jump j s' → j < i.labels.length) :
    (eval exec c s).Within d := by
  induction c generalizing d s with
  | skip => trivial
  | instr i =>
    simp only [eval]
    cases flow : exec i.op s with
    | jump j s' =>
      have label := List.getElem?_eq_getElem (labelled s j s' flow)
      simp only [label]
      exact closed _ (List.mem_of_getElem? label)
    | _ => trivial
  | seq a b iha ihb =>
    have first := iha s closed.1 labelled.1
    simp only [eval]
    cases result : eval exec a s with
    | next s' => exact ihb s' closed.2 labelled.2
    | _ => rwa [result] at first
  | block body ih =>
    have inside := ih s closed labelled
    simp only [eval]
    cases result : eval exec body s with
    | exit k s' =>
      rw [result] at inside
      cases k with
      | zero => trivial
      | succ k => exact Nat.lt_of_succ_lt_succ inside
    | _ => rwa [result] at inside

/-- Every jump that an instruction takes has a later position of the program as its label, and
the last instruction does not go on to the next one. -/
structure Forward (exec : ι → σ → Flow σ ε) (prog : List (Instr ι (Option Nat))) : Prop where
  jump : ∀ pc i s j s', prog[pc]? = some i → exec i.op s = .jump j s' →
    ∃ t, i.labels[j]? = some (some t) ∧ pc < t ∧ t < prog.length
  next : ∀ pc i s s', prog[pc]? = some i → exec i.op s = .next s' → pc + 1 < prog.length

/-- **A program whose jumps go forward ends**, after at most as many instructions as it has. -/
theorem Forward.ends (forward : Forward exec prog) : ∀ (fuel pc : Nat) (s : σ), pc < prog.length →
    prog.length ≤ pc + fuel →
    (∃ t, run exec prog fuel pc s = .finished t) ∨ ∃ e, run exec prog fuel pc s = .failed e
  | 0, pc, s, inside, enough => absurd inside (by omega)
  | fuel + 1, pc, s, inside, enough => by
    have here : prog[pc]? = some prog[pc] := List.getElem?_eq_getElem inside
    simp only [run, here]
    cases flow : exec prog[pc].op s with
    | next s' =>
      exact Forward.ends forward fuel (pc + 1) s' (forward.next pc _ s s' here flow) (by omega)
    | jump j s' =>
      obtain ⟨t, label, later, target⟩ := forward.jump pc _ s j s' here flow
      simp only [label]
      exact Forward.ends forward fuel t s' target (by omega)
    | done s' => exact Or.inl ⟨s', rfl⟩
    | fail e => exact Or.inr ⟨e, rfl⟩

/-- A run of the program from its start has come to `pc`; `ops` were executed on the way. -/
inductive Path (exec : ι → σ → Flow σ ε) (prog : List (Instr ι (Option Nat))) (start : σ) :
    List ι → Nat → σ → Prop where
  | start : Path exec prog start [] 0 start
  | next {ops : List ι} {pc : Nat} {s s' : σ} {i : Instr ι (Option Nat)} (before : Path exec prog start ops pc s)
      (here : prog[pc]? = some i) (flow : exec i.op s = .next s') :
      Path exec prog start (ops ++ [i.op]) (pc + 1) s'
  | jump {ops : List ι} {pc j t : Nat} {s s' : σ} {i : Instr ι (Option Nat)}
      (before : Path exec prog start ops pc s) (here : prog[pc]? = some i) (flow : exec i.op s = .jump j s')
      (label : i.labels[j]? = some (some t)) : Path exec prog start (ops ++ [i.op]) t s'

/-- Instructions at the start of a program that do not jump have all been executed when the
run comes behind them. -/
lemma Path.straight_executed {first rest : List (Instr ι (Option Nat))} (split : prog = first ++ rest)
    (straight : ∀ i ∈ first, ∀ s j s', exec i.op s ≠ .jump j s') {start : σ} {ops : List ι}
    (path : Path exec prog start ops pc s) : ∀ i ∈ first.take pc, i.op ∈ ops := by
  induction path with
  | start => exact fun i member => absurd member (by simp)
  | @next ops pc s s' i before here flow ih =>
    intro j member
    rw [List.take_add_one, List.mem_append] at member
    rcases member with old | new
    · exact List.mem_append_left _ (ih j old)
    · -- the instruction that was just executed
      have inside : first[pc]? = some j := by simpa using new
      have same : prog[pc]? = some j := by
        rw [split, List.getElem?_append_left (List.getElem?_eq_some_iff.mp inside).1, inside]
      rw [here] at same
      cases same
      exact List.mem_append_right _ (List.mem_singleton.mpr rfl)
  | @jump ops pc j t s s' i before here flow label ih =>
    -- only an instruction behind the straight ones jumps
    have behind : first.length ≤ pc := by
      by_contra inside
      have same : prog[pc]? = first[pc]? := by
        rw [split, List.getElem?_append_left (Nat.not_le.mp inside)]
      rw [here] at same
      exact straight i (List.mem_of_getElem? same.symm) s j s' flow
    rw [List.take_of_length_le behind] at ih
    exact fun k member => List.mem_append_left _ (ih k (List.mem_of_mem_take member))

end Run

/-! ## Labels that are set later -/

section Patch

variable {ι : Type}

def patch (labels : List (Option Nat)) (positions : List Nat) (prog : List (Instr ι (Option Nat))) :
    List (Instr ι (Option Nat)) :=
  positions.foldl (fun prog j => prog.modify j fun i => { i with labels := labels }) prog

@[simp] lemma patch_nil (labels : List (Option Nat)) (prog : List (Instr ι (Option Nat))) :
    patch labels [] prog = prog := rfl

lemma patch_append (labels : List (Option Nat)) (first second : List Nat) (prog : List (Instr ι (Option Nat))) :
    patch labels (first ++ second) prog = patch labels second (patch labels first prog) :=
  List.foldl_append

lemma modify_length {α : Type} (f : α → α) (pre post : List α) (x : α) :
    (pre ++ x :: post).modify pre.length f = pre ++ f x :: post := by
  induction pre with
  | nil => rfl
  | cons a pre ih => simp [ih]

lemma patch_singleton (labels : List (Option Nat)) (i : Instr ι (Option Nat))
    (pre post : List (Instr ι (Option Nat))) :
    patch labels [pre.length] (pre ++ i :: post) = pre ++ { i with labels := labels } :: post :=
  modify_length _ pre post i

namespace Code

variable {c : Code ι}

/-- The positions of the instructions that leave all of the `d` inner blocks. -/
def openSites : Code ι → Nat → Nat → List Nat
  | .skip, _, _ => []
  | .instr i, d, off => if ∀ k ∈ i.labels, k < d then [] else [off]
  | .seq a b, d, off => a.openSites d off ++ b.openSites d (off + a.size)
  | .block body, d, off => body.openSites (d + 1) off

/-- All instructions that leave the `d` inner blocks do so with the labels `outer`. -/
def Uniform (outer : List Nat) : Nat → Code ι → Prop
  | _, .skip => True
  | d, .instr i => (∀ k ∈ i.labels, k < d) ∨ i.labels = outer.map (· + d)
  | d, .seq a b => a.Uniform outer d ∧ b.Uniform outer d
  | d, .block body => body.Uniform outer (d + 1)

lemma openSites_closed {d : Nat} (closed : c.Closed d) (off : Nat) : c.openSites d off = [] := by
  induction c generalizing d off with
  | skip => rfl
  | instr i => exact if_pos closed
  | seq a b iha ihb => simp [openSites, iha closed.1, ihb closed.2]
  | block body ih => exact ih closed off

lemma Closed.uniform {d : Nat} (outer : List Nat) (closed : c.Closed d) : c.Uniform outer d := by
  induction c generalizing d with
  | skip => trivial
  | instr i => exact Or.inl closed
  | seq a b iha ihb => exact ⟨iha closed.1, ihb closed.2⟩
  | block body ih => exact ih closed

/-- **Setting the labels later gives the same program as having them at once.** -/
theorem patch_flatten {outer : List Nat} (exits : List (Option Nat)) :
    ∀ (inner : List (Option Nat)) (pre post : List (Instr ι (Option Nat))),
      c.Uniform outer inner.length →
      patch (outer.map fun k => exits[k]?.join) (c.openSites inner.length pre.length)
          (pre ++ (c.flatten pre.length inner ++ post)) =
        pre ++ (c.flatten pre.length (inner ++ exits) ++ post) := by
  induction c with
  | skip => exact fun inner pre post _ => rfl
  | instr i =>
    intro inner pre post uniform
    by_cases closed : ∀ k ∈ i.labels, k < inner.length
    · have known : ∀ k < inner.length, inner[k]? = (inner ++ exits)[k]? := by
        intro k hk
        rw [List.getElem?_append_left hk]
      rw [openSites, if_pos closed, patch_nil, flatten_congr (c := .instr i) closed _ known]
    · -- the instruction leaves the inner blocks, so all its labels are set
      have labels := uniform.resolve_left closed
      have same : (outer.map fun k => exits[k]?.join) = i.labels.map fun k => (inner ++ exits)[k]?.join := by
        rw [labels, List.map_map]
        refine List.map_congr_left fun k _ => ?_
        rw [Function.comp_apply, List.getElem?_append_right (by omega), Nat.add_sub_cancel]
      rw [openSites, if_neg closed]
      simp only [flatten, List.singleton_append]
      rw [patch_singleton, same]
  | seq a b iha ihb =>
    intro inner pre post uniform
    have first := iha inner pre (b.flatten (pre.length + a.size) inner ++ post) uniform.1
    have second := ihb inner (pre ++ a.flatten pre.length (inner ++ exits)) post uniform.2
    rw [List.length_append, length_flatten] at second
    simp only [flatten, openSites, patch_append, List.append_assoc] at first second ⊢
    rw [first, second]
  | block body ih => exact fun inner pre post uniform => ih (some (pre.length + body.size) :: inner) pre post uniform

lemma patch_block (uniform : c.Uniform [0] 0) (pre : List (Instr ι (Option Nat))) :
    patch [some (pre.length + c.size)] (c.openSites 0 pre.length) (pre ++ c.flatten pre.length []) =
      pre ++ (Code.block c).flatten pre.length [] := by
  have all := patch_flatten [some (pre.length + c.size)] [] pre [] uniform
  simpa [flatten] using all

end Code

end Patch

end Hex.Theory.BlockCode
