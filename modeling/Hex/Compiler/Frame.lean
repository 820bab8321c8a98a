/-
# Compiler.Frame — what a piece of code may change, and what it computes

* `Frame W m m'`: from `m` to `m'` only the cells `W` were written, and calls made.
* `Fresh lo hi`, `Older h`: the work cells that a piece of code was compiled with,
  and the cells that were there before.
* `LeadsTo`: code follows an evaluation, with the rules for a step, for sequences and for
  blocks; `Computes` for code that writes cells and makes calls only.
-/
import Hex.Compiler.Code
import Hex.Compiler.Sql

namespace Hex.Compiler

open Theory.BlockCode

variable {lo hi : Nat}

/-! ## Memory -/

namespace Machine

variable (m : Machine) (c c' : Cell) (d : NullableDatum)

@[simp] lemma mem_set_self : (m.set c d).mem c = d := by
  simp [set]

lemma mem_set_ne {c c' : Cell} (ne : c' ≠ c) : (m.set c d).mem c' = m.mem c' := by
  simp [set, Function.update_of_ne ne]

@[simp] lemma mem_setNull_self (b : Bool) : (m.setNull c b).mem c = { m.mem c with isnull := b } :=
  mem_set_self m c _

@[simp] lemma mem_setValue_self (v : Datum) : (m.setValue c v).mem c = { m.mem c with value := v } :=
  mem_set_self m c _

@[simp] lemma set_trace : (m.set c d).trace = m.trace := rfl
@[simp] lemma setNull_trace (b : Bool) : (m.setNull c b).trace = m.trace := rfl
@[simp] lemma setValue_trace (v : Datum) : (m.setValue c v).trace = m.trace := rfl

end Machine

lemma sql_of_isnull {d : NullableDatum} (null : d.isnull = true) : d.sql = none :=
  NullableDatum.sql_eq_none.mpr null

lemma sql_of_not_isnull {d : NullableDatum} (null : d.isnull = false) : d.sql = some d.value :=
  NullableDatum.sql_eq_some.mpr ⟨null, rfl⟩

/-- The arguments of a call are NULL as their values are. -/
lemma anyArgNull_eq (m : Machine) (cells : List Cell) : anyArgNull m cells = (m.args cells).any Option.isNone := by
  simp only [anyArgNull, Machine.args, List.any_map]
  congr 1
  funext c
  exact NullableDatum.isnull_eq (m.mem c)

/-! ## Frames -/

/-- Only the cells `W` are written. -/
structure Frame (W : Cell → Prop) (m m' : Machine) : Prop where
  mem : ∀ c, ¬ W c → m'.mem c = m.mem c
  slots : m'.slots = m.slots
  resultslot : m'.resultslot = m.resultslot
  pergroups : m'.pergroups = m.pergroups

namespace Frame

variable {W W' : Cell → Prop} {m m1 m' : Machine}

lemma refl (m : Machine) : Frame W m m := ⟨fun _ _ => rfl, rfl, rfl, rfl⟩

lemma trans (first : Frame W m m1) (second : Frame W m1 m') : Frame W m m' :=
  ⟨fun c out => (second.mem c out).trans (first.mem c out), second.slots.trans first.slots,
    second.resultslot.trans first.resultslot, second.pergroups.trans first.pergroups⟩

lemma mono (frame : Frame W m m') (sub : ∀ c, W c → W' c) : Frame W' m m' :=
  ⟨fun c out => frame.mem c fun inside => out (sub c inside), frame.slots, frame.resultslot, frame.pergroups⟩

lemma set {c : Cell} (inside : W c) (d : NullableDatum) : Frame W m (m.set c d) :=
  ⟨fun _ out => Machine.mem_set_ne m d fun eq => out (eq ▸ inside), rfl, rfl, rfl⟩

lemma only (m : Machine) (c : Cell) (d : NullableDatum) : Frame (· = c) m (m.set c d) :=
  ⟨fun _ ne => Machine.mem_set_ne m d ne, rfl, rfl, rfl⟩

lemma setValue {c : Cell} (inside : W c) (v : Datum) : Frame W m (m.setValue c v) := set inside _

lemma traced (trace : List Call) : Frame W m { m with trace := trace } := ⟨fun _ _ => rfl, rfl, rfl, rfl⟩

end Frame

/-- The work cells from `lo` to `hi`. -/
def Fresh (lo hi : Nat) (c : Cell) : Prop := ∃ k, lo ≤ k ∧ k < hi ∧ c = .work k

/-- A cell that was there when `h` work cells were in use. -/
def Older (h : Nat) (c : Cell) : Prop := ∀ k, h ≤ k → c ≠ .work k

lemma older_work {h k : Nat} (lt : k < h) : Older h (.work k) := by
  intro k' le eq
  cases eq
  omega

lemma older_result (h : Nat) : Older h .result := fun _ _ eq => by cases eq

lemma Older.mono {h h' : Nat} {c : Cell} (older : Older h c) (le : h ≤ h') : Older h' c :=
  fun k le' => older k (Nat.le_trans le le')

lemma Older.not_fresh {c : Cell} (older : Older lo c) : ¬ Fresh lo hi c := by
  rintro ⟨k, le, _, eq⟩
  exact older k le eq

lemma Fresh.mono {lo' hi' : Nat} {c : Cell} (fresh : Fresh lo hi c) (below : lo' ≤ lo)
    (above : hi ≤ hi') : Fresh lo' hi' c := by
  obtain ⟨k, le, lt, eq⟩ := fresh
  exact ⟨k, Nat.le_trans below le, Nat.lt_of_lt_of_le lt above, eq⟩

lemma Fresh.older {c : Cell} (fresh : Fresh lo hi c) : Older hi c := by
  obtain ⟨k, _, lt, rfl⟩ := fresh
  exact older_work lt

lemma workCells_add (first n k : Nat) : workCells first (n + k) = workCells first n ++ workCells (first + n) k := by
  simp only [workCells, ← List.map_append, List.range'_append_1]

lemma mem_workCells {first n : Nat} {c : Cell} : c ∈ workCells first n ↔ Fresh first (first + n) c := by
  simp only [workCells, List.mem_map, List.mem_range'_1, Fresh]
  constructor
  · rintro ⟨k, ⟨le, lt⟩, rfl⟩
    exact ⟨k, le, lt, rfl⟩
  · rintro ⟨k, le, lt, rfl⟩
    exact ⟨k, ⟨le, lt⟩, rfl⟩

@[simp] lemma length_workCells (first n : Nat) : (workCells first n).length = n := by
  simp [workCells]

lemma nodup_workCells (first n : Nat) : (workCells first n).Nodup :=
  List.Pairwise.map Cell.work (fun _ _ ne eq => ne (Cell.work.inj eq)) List.nodup_range'

/-! ## Memory filled by the compiler -/

/-- The cells that the compiler filled hold their values. -/
def Loaded (stores : List (Cell × NullableDatum)) (m : Machine) : Prop :=
  ∀ p ∈ stores, (m.mem p.1).sql = p.2.sql

/-- Code relies only on given cells and on cells that the compiler allocates for it. -/
def Stores {d : Nat} (g : Gen d) (cells : List Cell) : Prop :=
  ∀ h, ∀ p ∈ (g.piece h).constants, p.1 ∈ cells ∨ Fresh h (g.piece h).heap p.1

namespace Stores

variable {d : Nat} {cells : List Cell}

lemma nop : Stores (Gen.nop : Gen d) cells := by
  intro h p member
  simp [Gen.nop] at member

lemma jump (op : Op) (labels : List Nat) (inside : ∀ k ∈ labels, k < d) :
    Stores (Gen.jump op labels inside) cells := by
  intro h p member
  simp [Gen.jump] at member

lemma step (op : Op) : Stores (Gen.step op : Gen d) cells := jump op [] _

lemma seq {a b : Gen d} (first : Stores a cells) (second : Stores b cells) : Stores (a.seq b) cells := by
  intro h p member
  rcases List.mem_append.mp member with member | member
  · exact (first h p member).imp id fun fresh => fresh.mono (Nat.le_refl _) (b.grows _)
  · exact (second _ p member).imp id fun fresh => fresh.mono (a.grows h) (Nat.le_refl _)

lemma block {a : Gen (d + 1)} (body : Stores a cells) : Stores (Gen.block a) cells := body

lemma inner {a : Gen 0} (body : Stores a cells) : Stores (Gen.inner a : Gen d) cells := body

lemma palloc {n : Nat} {rest : Nat → Gen d} (later : ∀ h, Stores (rest h) (workCells h n ++ cells)) :
    Stores (Gen.palloc n rest) cells := by
  intro h p member
  have grows := (rest h).grows (h + n)
  rcases later h (h + n) p member with given | fresh
  · rcases List.mem_append.mp given with own | given
    · exact Or.inr ((mem_workCells.mp own).mono (Nat.le_refl _) grows)
    · exact Or.inl given
  · exact Or.inr (fresh.mono (Nat.le_add_right h n) (Nat.le_refl _))

lemma store {c : Cell} (member : c ∈ cells) (value : NullableDatum) : Stores (Gen.store c value : Gen d) cells := by
  intro h p stored
  simp only [Gen.store, List.mem_singleton] at stored
  exact Or.inl (stored ▸ member)

lemma preset (c : Cell) (value : NullableDatum) : Stores (Gen.preset c value : Gen d) cells := by
  intro h p stored
  simp [Gen.preset] at stored

lemma weaken {g : Gen d} {more : List Cell} (stores : Stores g cells) (sub : ∀ c ∈ cells, c ∈ more) : Stores g more :=
  fun h p member => (stores h p member).imp (sub p.1) id

end Stores

/-! ## Code that follows an evaluation -/

/-- The result `r` of code that was started on `m` follows the evaluation: a value leads to a
machine that `how` tells from the result, that `F` relates to `m` and that `post` holds of. -/
def LeadsTo {α : Type} (F : Machine → Machine → Prop) (m : Machine) (answer : Answer α)
    (how : α → Machine → Result Machine Raised → Prop) (post : α → Machine → Prop)
    (r : Result Machine Raised) : Prop :=
  match answer with
  | .value a trace => ∃ m', how a m' r ∧ m'.trace = trace ∧ F m m' ∧ post a m'
  | .raised e => r = .fail e
  | .notBoolean => True

/-- The code runs through. -/
def Through {α : Type} (_ : α) (m' : Machine) (r : Result Machine Raised) : Prop := r = .next m'

/-- The code runs through or ends the block around it. -/
def Closes {α : Type} (_ : α) (m' : Machine) (r : Result Machine Raised) : Prop :=
  r = .next m' ∨ r = .exit 0 m'

namespace LeadsTo

variable {α β : Type} {F F' : Machine → Machine → Prop} {m : Machine} {answer : Answer α}
  {how how' : α → Machine → Result Machine Raised → Prop} {post post' : α → Machine → Prop}
  {r : Result Machine Raised} {x : Eval α} {mid : α → Machine → Prop} {a b : Code Op}

lemma mono (ends : LeadsTo F m answer how post r) (sub : ∀ m', F m m' → F' m m') : LeadsTo F' m answer how post r := by
  cases answer with
  | value a trace =>
    obtain ⟨m', end_, traced, frame, held⟩ := ends
    exact ⟨m', end_, traced, sub m' frame, held⟩
  | raised e => exact ends
  | notBoolean => trivial

lemma imp (ends : LeadsTo F m answer how post r) (how_ : ∀ a m', how a m' r → how' a m' r)
    (holds : ∀ a m', F m m' → post a m' → post' a m') : LeadsTo F m answer how' post' r := by
  cases answer with
  | value a trace =>
    obtain ⟨m', end_, traced, frame, held⟩ := ends
    exact ⟨m', how_ a m' end_, traced, frame, holds a m' frame held⟩
  | raised e => exact ends
  | notBoolean => trivial

/-- The machine at the end is the one that the code runs through with. -/
lemma through (ends : LeadsTo F m answer Through post r) :
    LeadsTo F m answer Through (fun a m' => post a m' ∧ r = .next m') r := by
  cases answer with
  | value a trace =>
    obtain ⟨m', ran, traced, frame, held⟩ := ends
    exact ⟨m', ran, traced, frame, held, ran⟩
  | raised e => exact ends
  | notBoolean => trivial

lemma started {m0 : Machine} (earlier : ∀ m', F m m' → F m0 m') (ends : LeadsTo F m answer how post r) :
    LeadsTo F m0 answer how post r := by
  cases answer with
  | value a trace =>
    obtain ⟨m', end_, traced, frame, held⟩ := ends
    exact ⟨m', end_, traced, earlier m' frame, held⟩
  | raised e => exact ends
  | notBoolean => trivial

variable {exec : Op → Machine → Flow Machine Raised}

/-- Code that starts with a part whose result is `r1` follows the evaluation of one after
the other. -/
lemma bind {f : α → Eval β} {how' : β → Machine → Result Machine Raised → Prop} {post : β → Machine → Prop} {r1 : Result Machine Raised}
    (first : LeadsTo F' m (x m.trace) how mid r1) (trans : ∀ m1 m', F' m m1 → F m1 m' → F m m')
    (fails : ∀ e, r1 = .fail e → r = .fail e)
    (second : ∀ y m1, how y m1 r1 → F' m m1 → mid y m1 → LeadsTo F m1 (f y m1.trace) how' post r) :
    LeadsTo F m ((x >>= f) m.trace) how' post r := by
  change LeadsTo F m (Eval.bind x f m.trace) how' post _
  simp only [Eval.bind]
  cases result : x m.trace with
  | value y trace =>
    rw [result] at first
    obtain ⟨m1, end_, rfl, frame, held⟩ := first
    have later := second y m1 end_ frame held
    dsimp only
    cases answered : f y m1.trace with
    | value z trace =>
      rw [answered] at later
      obtain ⟨m', end_, traced, frame', held'⟩ := later
      exact ⟨m', end_, traced, trans m1 m' frame frame', held'⟩
    | raised e =>
      rw [answered] at later
      exact later
    | notBoolean => trivial
  | raised e =>
    rw [result] at first
    exact fails e first
  | notBoolean => trivial

/-- **Sequences follow the evaluation of one after the other.** -/
theorem seq {f : α → Eval β} {how : β → Machine → Result Machine Raised → Prop} {post : β → Machine → Prop}
    (first : LeadsTo F' m (x m.trace) Through mid (eval exec a m)) (trans : ∀ m1 m', F' m m1 → F m1 m' → F m m')
    (second : ∀ y m1, F' m m1 → mid y m1 → LeadsTo F m1 (f y m1.trace) how post (eval exec b m1)) :
    LeadsTo F m ((x >>= f) m.trace) how post (eval exec (.seq a b) m) := by
  apply bind first trans
  · intro e failed
    simp only [eval, failed]
  · intro y m1 ran frame held
    change eval exec a m = .next m1 at ran
    simp only [eval, ran]
    exact second y m1 frame held

lemma map {f : α → β} {trace : List Call} {how' : β → Machine → Result Machine Raised → Prop}
    {post' : β → Machine → Prop} (ends : LeadsTo F m (x trace) how post r)
    (how_ : ∀ y m', how y m' r → how' (f y) m' r) (holds : ∀ y m', F m m' → post y m' → post' (f y) m') :
    LeadsTo F m ((x >>= fun y => Pure.pure (f y)) trace) how' post' r := by
  change LeadsTo F m (Eval.bind x (fun y => Eval.pure (f y)) trace) how' post' r
  simp only [Eval.bind]
  cases result : x trace with
  | value y trace' =>
    rw [result] at ends
    obtain ⟨m', end_, traced, frame, held⟩ := ends
    exact ⟨m', how_ y m' end_, traced, frame, holds y m' frame held⟩
  | raised e =>
    rw [result] at ends
    exact ends
  | notBoolean => trivial

/-- Code that does not add to the evaluation, such as a jump that is not taken. -/
lemma before {m1 : Machine} (ran : eval exec a m = .next m1) (earlier : ∀ m', F m1 m' → F m m')
    (later : LeadsTo F m1 answer how post (eval exec b m1)) : LeadsTo F m answer how post (eval exec (.seq a b) m) := by
  simp only [eval, ran]
  exact later.started earlier

lemma leaves {k : Nat} {m' : Machine} (ran : eval exec a m = .exit k m')
    (later : LeadsTo F m answer how post (.exit k m')) : LeadsTo F m answer how post (eval exec (.seq a b) m) := by
  simpa only [eval, ran] using later

/-- **A block ends where its code runs through or leaves it.** -/
theorem block {body : Code Op} (inside : LeadsTo F m answer Closes post (eval exec body m)) :
    LeadsTo F m answer Through post (eval exec (.block body) m) := by
  simp only [eval]
  cases answer with
  | value a trace =>
    obtain ⟨m', end_, traced, frame, held⟩ := inside
    refine ⟨m', ?_, traced, frame, held⟩
    rcases end_ with ran | ran <;> rw [ran] <;> rfl
  | raised e =>
    change eval exec body m = .fail e at inside
    rw [inside]
    rfl
  | notBoolean => trivial

end LeadsTo

/-- Code that writes only the cells `W` and follows the evaluation. -/
abbrev Computes {α : Type} (W : Cell → Prop) : Machine → Answer α → (α → Machine → Result Machine Raised → Prop) →
    (α → Machine → Prop) → Result Machine Raised → Prop :=
  LeadsTo (Frame W)

namespace Computes

variable {α β : Type} {W W' : Cell → Prop} {m : Machine} {answer : Answer α}
  {how how' : α → Machine → Result Machine Raised → Prop} {post post' : α → Machine → Prop}
  {r : Result Machine Raised} {x : Eval α} {mid : α → Machine → Prop}

lemma mono (computes : Computes W m answer how post r) (sub : ∀ c, W c → W' c) : Computes W' m answer how post r :=
  LeadsTo.mono computes fun _ frame => frame.mono sub

lemma imp (computes : Computes W m answer how post r) (ends : ∀ a m', how a m' r → how' a m' r)
    (holds : ∀ a m', post a m' → post' a m') : Computes W m answer how' post' r :=
  LeadsTo.imp computes ends fun a m' _ => holds a m'

lemma started {m0 : Machine} (frame : Frame W m0 m) (computes : Computes W m answer how post r) :
    Computes W m0 answer how post r :=
  LeadsTo.started (fun _ => frame.trans) computes

lemma pure {a : α} (ends : how a m r) (holds : post a m) : Computes W m ((Pure.pure a : Eval α) m.trace) how post r :=
  ⟨m, ends, rfl, Frame.refl m, holds⟩

lemma last {a : α} {m' : Machine} (ends : how a m' r) (traced : m'.trace = m.trace) (frame : Frame W m m')
    (holds : post a m') : Computes W m ((Pure.pure a : Eval α) m.trace) how post r :=
  ⟨m', ends, traced, frame, holds⟩

variable {exec : Op → Machine → Flow Machine Raised}

lemma bind {f : α → Eval β} {how' : β → Machine → Result Machine Raised → Prop} {post : β → Machine → Prop} {r1 : Result Machine Raised}
    (first : Computes W' m (x m.trace) how mid r1) (sub : ∀ c, W' c → W c) (fails : ∀ e, r1 = .fail e → r = .fail e)
    (second : ∀ y m1, how y m1 r1 → Frame W' m m1 → mid y m1 → Computes W m1 (f y m1.trace) how' post r) :
    Computes W m ((x >>= f) m.trace) how' post r :=
  LeadsTo.bind first (fun _ _ frame => (frame.mono sub).trans) fails second

lemma seq {a b : Code Op} {f : α → Eval β} {how : β → Machine → Result Machine Raised → Prop} {post : β → Machine → Prop}
    (first : Computes W' m (x m.trace) Through mid (eval exec a m)) (sub : ∀ c, W' c → W c)
    (second : ∀ y m1, Frame W' m m1 → mid y m1 → Computes W m1 (f y m1.trace) how post (eval exec b m1)) :
    Computes W m ((x >>= f) m.trace) how post (eval exec (.seq a b) m) :=
  LeadsTo.seq first (fun _ _ frame => (frame.mono sub).trans) second

lemma map {f : α → β} {trace : List Call} {how' : β → Machine → Result Machine Raised → Prop}
    {post' : β → Machine → Prop} (computes : Computes W m (x trace) how post r)
    (ends : ∀ y m', how y m' r → how' (f y) m' r) (holds : ∀ y m', Frame W m m' → post y m' → post' (f y) m') :
    Computes W m ((x >>= fun y => Pure.pure (f y)) trace) how' post' r :=
  LeadsTo.map computes ends holds

lemma before {a b : Code Op} {m1 : Machine} {answer : Answer α} (ran : eval exec a m = .next m1)
    (frame : Frame W m m1) (later : Computes W m1 answer how post (eval exec b m1)) :
    Computes W m answer how post (eval exec (.seq a b) m) :=
  LeadsTo.before ran (fun _ => frame.trans) later

end Computes

end Hex.Compiler
