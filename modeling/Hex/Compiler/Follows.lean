/-
# Compiler.Follows — the emitted code follows the interpreter through code

`Lockstep` says for every opcode where the two executors agree afterwards. Here that is
carried through the code of expressions.

* `Gen.spoils`: cells that may differ behind code.
* `Runs`, `Leaves`, `Ends`: code of a generator is run by both, through to its end, maybe
  out of the block around it, or to the end of that block on either way.
* `Entry`: what is clean when the code of an expression is entered.
* `Follows`: from an `Entry` the code of an expression runs through, and then the result
  is clean. For every way in which code of expressions is put together there is a lemma
  that keeps it.
-/
import Hex.Compiler.Lockstep
import Hex.Compiler.Correct

namespace Hex.Compiler

open Theory.BlockCode

/-! ## Cells that may differ -/

def Dirty (D : Set Cell) (lo hi : Nat) : Set Cell := {c | c ∈ D ∨ Fresh lo hi c}

/-- The cells `D`, and the work cells that the code allocates. -/
def Gen.spoils {d : Nat} (g : Gen d) (h : Nat) (D : Set Cell) : Set Cell := Dirty D h (g.piece h).heap

section Dirty

variable {D M E : Set Cell} {lo mid hi h h1 h2 d : Nat} {c : Cell} {a b : Gen d}

lemma subset_dirty : D ⊆ Dirty D lo hi := fun _ => Or.inl

lemma diff_sub : D \ E ⊆ D := fun _ inside => inside.1

lemma Dirty.mono (sub : M ⊆ D) (below : lo ≤ h) (above : h1 ≤ hi) : Dirty M h h1 ⊆ Dirty D lo hi := by
  rintro c (inside | fresh)
  · exact Or.inl (sub inside)
  · exact Or.inr (fresh.mono below above)

lemma dirty_diff : Dirty D lo hi \ E ⊆ Dirty (D \ E) lo hi := by
  rintro c ⟨inside | fresh, out⟩
  · exact Or.inl ⟨inside, out⟩
  · exact Or.inr fresh

/-- One stretch behind the other. -/
lemma Dirty.behind (sub : M ⊆ Dirty D lo mid) (below : lo ≤ mid) (above : mid ≤ hi) : Dirty M mid hi ⊆ Dirty D lo hi := by
  rintro c (inside | fresh)
  · exact Dirty.mono (fun _ => id) (Nat.le_refl lo) above (sub inside)
  · exact Or.inr (fresh.mono below (Nat.le_refl hi))

lemma not_mem_dirty (clean : c ∉ D) (old : Older lo c) : c ∉ Dirty D lo hi := by
  rintro (inside | fresh)
  · exact clean inside
  · exact old.not_fresh fresh

lemma subset_spoils : D ⊆ a.spoils h D := subset_dirty

lemma spoils_mono (sub : M ⊆ D) : a.spoils h M ⊆ a.spoils h D := Dirty.mono sub le_rfl le_rfl

lemma spoils_seq (sub : M ⊆ a.spoils h D) : b.spoils (a.piece h).heap M ⊆ (a.seq b).spoils h D :=
  Dirty.behind sub (a.grows h) (b.grows _)

lemma spoils_left (sub : M ⊆ D) : a.spoils h M ⊆ (a.seq b).spoils h D :=
  Dirty.mono sub (Nat.le_refl h) (b.grows _)

/-- Later in the code, with `h1` work cells, only new cells and some of `D` differ. -/
structure Onward (h : Nat) (D : Set Cell) (h1 : Nat) (M : Set Cell) : Prop where
  grows : h ≤ h1
  sub : M ⊆ Dirty D h h1

namespace Onward

lemma same (sub : M ⊆ D) : Onward h D h M := ⟨Nat.le_refl h, fun _ inside => Or.inl (sub inside)⟩

lemma palloc (n : Nat) : Onward h D (h + n) D := ⟨Nat.le_add_right h n, subset_dirty⟩

lemma behind (sub : M ⊆ D) : Onward h D (a.piece h).heap (a.spoils h M) := ⟨a.grows h, spoils_mono sub⟩

lemma trans (first : Onward h D h1 M) (second : Onward h1 M h2 E) : Onward h D h2 E :=
  ⟨Nat.le_trans first.grows second.grows, fun _ inside =>
    Dirty.behind first.sub first.grows second.grows (second.sub inside)⟩

lemma diff (onward : Onward h D h1 M) : Onward h (D \ E) h1 (M \ E) :=
  ⟨onward.grows, fun _ inside => dirty_diff ⟨onward.sub inside.1, inside.2⟩⟩

lemma spoils (onward : Onward h D h1 M) : a.spoils h1 M ⊆ Dirty D h (a.piece h1).heap :=
  Dirty.behind onward.sub onward.grows (a.grows h1)

lemma clean (onward : Onward h D h1 M) (clean : c ∉ D) (old : Older h c) : c ∉ M :=
  fun inside => not_mem_dirty clean old (onward.sub inside)

lemma older (onward : Onward h D h1 M) (older : ∀ c ∈ D, Older h c) : ∀ c ∈ M, Older h1 c := by
  intro c inside
  rcases onward.sub inside with inside | fresh
  · exact (older c inside).mono onward.grows
  · exact fresh.older

end Onward

end Dirty

/-! ## Code that both run -/

section Rules

variable (w : World) (llvm : Llvm)

/-- From states that agree outside of `D` both run the code to `Q`. -/
def Carries (D : Set Cell) (c : Code Op) (Q : Post Machine Machine) : Prop :=
  Sim (Op.typed w) (interpStep w) (emittedStep w llvm) (Agree D) c Q

variable {d : Nat} (g : Gen d) (h : Nat) (D M N : Set Cell)

/-- The code runs through, and then both agree outside of `M` and of its own cells. -/
def Runs : Prop := Carries w llvm D (g.piece h).code (.through (Agree (g.spoils h M)))

/-- The code runs through to `M`, or leaves the block around it to `N`. -/
def Leaves : Prop :=
  Carries w llvm D (g.piece h).code (.leaving (Agree (g.spoils h M)) (Agree (g.spoils h N)))

/-- Both end the block around the code, maybe on different ways. -/
def Ends : Prop :=
  Meets (Op.typed w) (interpStep w) (emittedStep w llvm) (Agree D) (g.piece h).code (Agree (g.spoils h N))

variable {w llvm g h D M N} {M' N' : Set Cell} {a b : Gen d}

lemma StepsTo.carries {op : Op} {labels : List Nat} {Q : Post Machine Machine}
    (steps : StepsTo w llvm op D labels Q) : Carries w llvm D (.instr { op := op, labels := labels }) Q :=
  Sim.instr fun m m' agree typed => steps m m' agree typed

lemma StepsTo.weaken {op : Op} {labels : List Nat} {Q R : Post Machine Machine} (steps : StepsTo w llvm op D labels Q)
    (le : Q.Le R) : StepsTo w llvm op D labels R :=
  fun m m' agree typed => (steps m m' agree typed).mono le

lemma StepsTo.mono {op : Op} {labels : List Nat} (steps : StepsOn w llvm op D labels M)
    (sub : M ⊆ N) : StepsOn w llvm op D labels N :=
  steps.weaken (Post.through_le fun _ _ agree => agree.mono sub)

/-- Where code may leave the block around it, it may do so with more that differs. -/
lemma Carries.leaving {c : Code Op} (carries : Carries w llvm D c (.leaving (Agree M) (Agree N))) (next : M ⊆ M')
    (exit : N ⊆ N') : Carries w llvm D c (.leaving (Agree M') (Agree N')) := by
  refine Sim.mono carries (fun _ _ => id) ⟨fun _ _ agree => agree.mono next, ?_, fun _ _ never => never.elim⟩
  rintro k m m' ⟨rfl, agree⟩
  exact ⟨rfl, agree.mono exit⟩

namespace Runs

lemma mono {D' : Set Cell} (runs : Runs w llvm g h D M) (pre : D' ⊆ D) (sub : M ⊆ N) : Runs w llvm g h D' N :=
  Sim.mono runs (fun _ _ agree => agree.mono pre) (Post.through_le fun _ _ agree => agree.mono (spoils_mono sub))

lemma weaken (runs : Runs w llvm g h D M) (sub : M ⊆ N) : Runs w llvm g h D N := runs.mono (fun _ => id) sub

lemma nop : Runs w llvm (Gen.nop : Gen d) h D D := Sim.skip fun _ _ agree => agree.mono subset_spoils

lemma store (c : Cell) (value : NullableDatum) : Runs w llvm (Gen.store c value : Gen d) h D D :=
  Sim.skip fun _ _ agree => agree.mono subset_spoils

lemma step {op : Op} (steps : StepsOn w llvm op D [] M) : Runs w llvm (Gen.step op : Gen d) h D M :=
  (steps.mono subset_spoils).carries

lemma before {c : Code Op} {Q : Post Machine Machine} (runs : Runs w llvm g h D M)
    (later : Carries w llvm (g.spoils h M) c Q) : Carries w llvm D (.seq (g.piece h).code c) Q :=
  Sim.seq (Sim.mono runs (fun _ _ => id) (Post.through_le fun _ _ => id)) later

lemma seq (first : Runs w llvm a h D M) (second : Runs w llvm b (a.piece h).heap (a.spoils h M) M')
    (sub : M' ⊆ a.spoils h N) : Runs w llvm (a.seq b) h D N :=
  first.before (Sim.mono second (fun _ _ => id) (Post.through_le fun _ _ agree => agree.mono (spoils_seq sub)))

lemma andThen (first : Runs w llvm a h D M)
    (second : Runs w llvm b (a.piece h).heap (a.spoils h M) (a.spoils h M)) : Runs w llvm (a.seq b) h D M :=
  first.seq second fun _ => id

/-- Code that fills cells while compiling only, and then other code. -/
lemma skip (nothing : ∀ h, (a.piece h).code = .skip ∧ (a.piece h).heap = h) (runs : Runs w llvm b h D M) :
    Runs w llvm (a.seq b) h D M := by
  obtain ⟨code, heap⟩ := nothing h
  have second : Carries w llvm D (b.piece (a.piece h).heap).code (.through (Agree ((a.seq b).spoils h M))) := by
    show Carries w llvm D _ (.through (Agree (Dirty M h (b.piece (a.piece h).heap).heap)))
    rw [heap]
    exact runs
  show Carries w llvm D (.seq (a.piece h).code _) _
  rw [code]
  exact Sim.seq (Sim.skip fun _ _ => id) second

lemma palloc {n : Nat} {rest : Nat → Gen d} (runs : Runs w llvm (rest h) (h + n) D M)
    (sub : M ⊆ Dirty N h (h + n)) : Runs w llvm (Gen.palloc n rest) h D N := by
  refine Sim.mono runs (fun _ _ => id) (Post.through_le fun _ _ agree => agree.mono ?_)
  exact Dirty.behind sub (Nat.le_add_right h n) ((rest h).grows _)

lemma onward (_ : Runs w llvm g h D M) (sub : M ⊆ D) : Onward h D (g.piece h).heap (g.spoils h M) := .behind sub

lemma inner {a : Gen 0} (runs : Runs w llvm a h D M) : Runs w llvm (Gen.inner a : Gen d) h D M := runs

lemma leaves (runs : Runs w llvm g h D M) : Leaves w llvm g h D M N :=
  Sim.mono runs (fun _ _ => id) (Post.through_le fun _ _ => id)

lemma block {inside : Gen (d + 1)} (leaves : Leaves w llvm inside h D N N) :
    Runs w llvm (Gen.block inside) h D N := by
  refine Sim.block (Sim.mono leaves (fun _ _ => id) ⟨fun _ _ => id, ?_, fun _ _ never => never.elim⟩)
  rintro k m m' ⟨rfl, agree⟩
  exact agree

end Runs

namespace Leaves

lemma mono (leaves : Leaves w llvm g h D M N) (next : M ⊆ M') (exit : N ⊆ N') : Leaves w llvm g h D M' N' :=
  Carries.leaving leaves (spoils_mono next) (spoils_mono exit)

lemma seq (first : Leaves w llvm a h D M N) (second : Leaves w llvm b (a.piece h).heap (a.spoils h M) M' N')
    {E : Set Cell} (next : M' ⊆ a.spoils h E) (exit : N' ⊆ a.spoils h N) : Leaves w llvm (a.seq b) h D E N :=
  Sim.seq (Carries.leaving first (fun _ => id) (spoils_left fun _ => id))
    (Carries.leaving second (spoils_seq next) (spoils_seq exit))

lemma andThen (first : Leaves w llvm a h D M M)
    (second : Leaves w llvm b (a.piece h).heap (a.spoils h M) (a.spoils h M) (a.spoils h M)) :
    Leaves w llvm (a.seq b) h D M M :=
  first.seq second (fun _ => id) fun _ => id

lemma onward (_ : Leaves w llvm g h D M N) (sub : M ⊆ D) : Onward h D (g.piece h).heap (g.spoils h M) := .behind sub

lemma jump {op : Op} {inside : ∀ k ∈ [0], k < d} {E : Set Cell}
    (steps : StepsTo w llvm op D [0] (.leaving (Agree M) (Agree N'))) (exit : N' ⊆ N) (later : Leaves w llvm b h M E N) :
    Leaves w llvm ((Gen.jump op [0] inside).seq b) h D E N :=
  Sim.seq (Carries.leaving steps.carries (fun _ => id) fun _ inside => subset_spoils (exit inside)) later

end Leaves

namespace Ends

lemma mono (ends : Ends w llvm g h D N) (sub : N ⊆ N') : Ends w llvm g h D N' :=
  Meets.mono ends fun _ _ agree => agree.mono (spoils_mono sub)

lemma seq (first : Leaves w llvm a h D M N) (second : Ends w llvm b (a.piece h).heap (a.spoils h M) N')
    (sub : N' ⊆ a.spoils h N) : Ends w llvm (a.seq b) h D N :=
  Meets.seq (Carries.leaving first (fun _ => id) (spoils_left fun _ => id))
    (Meets.mono second fun _ _ agree => agree.mono (spoils_seq sub))

lemma jump {op : Op} {inside : ∀ k ∈ [0], k < d} (steps : StepsTo w llvm op D [0] (.leaving (Agree M) (Agree N')))
    (exit : N' ⊆ N) (later : Ends w llvm b h M N) : Ends w llvm ((Gen.jump op [0] inside).seq b) h D N :=
  Meets.seq (Carries.leaving steps.carries (fun _ => id) fun _ inside => subset_spoils (exit inside)) later

lemma block {inside : Gen (d + 1)} (ends : Ends w llvm inside h D N) : Runs w llvm (Gen.block inside) h D N :=
  Meets.block ends fun _ _ => id

end Ends

end Rules

/-! ## Where the code of an expression is entered -/

/-- The code of an expression is entered with `h` work cells in use. Cells that differ are
older; the placeholders it uses are clean, and where the test value of a CASE stands in the
result cell, the expression reads it first. -/
structure Entry (uses first : Bool) (s : Scope) (res : Cell) (h : Nat) (D : Set Cell) : Prop where
  older : ∀ c ∈ D, Older h c
  held : ∀ c, s.Holds uses c → Older h c ∧ c ∉ D
  old : Older h res
  clear : Clear uses first s res

namespace Entry

variable {uses uses' first first' : Bool} {s : Scope} {res c : Cell} {h h1 : Nat} {D M : Set Cell}

lemma held_later (entry : Entry uses first s res h D) (onward : Onward h D h1 M) (used : uses' = true → uses = true) :
    ∀ c, s.Holds uses' c → Older h1 c ∧ c ∉ M := by
  intro c holds
  obtain ⟨old, clean⟩ := entry.held c (holds.mono used)
  exact ⟨old.mono onward.grows, onward.clean clean old⟩

lemma later (entry : Entry uses first s res h D) (onward : Onward h D h1 M) (used : uses' = true → uses = true)
    (reads : uses' = true → first = true → first' = true) : Entry uses' first' s res h1 M := by
  refine ⟨onward.older entry.older, entry.held_later onward used, entry.old.mono onward.grows, ?_,
    entry.clear.domainval⟩
  intro isUsed later eq
  refine entry.clear.caseval (used isUsed) ?_ eq
  cases first with
  | false => rfl
  | true => exact absurd (reads isUsed rfl) (by simp [later])

/-- Enter an expression whose value goes into a new cell. -/
lemma child (entry : Entry uses first s res h D) (onward : Onward h D h1 M) (used : uses' = true → uses = true)
    (fresh : Fresh h h1 c) : Entry uses' first' s c h1 M := by
  refine ⟨onward.older entry.older, entry.held_later onward used, fresh.older, clear_of_not_holds fun holds => ?_⟩
  exact (entry.held c (holds.mono used)).1.not_fresh fresh

/-- The result cell differs from here on. -/
lemma spoil (entry : Entry uses false s res h D) : Entry uses false s res h (insert res D) := by
  refine { entry with
    older := fun c inside => inside.elim (fun eq => eq ▸ entry.old) (entry.older c)
    held := fun c holds => ⟨(entry.held c holds).1, ?_⟩ }
  exact fun inside => inside.elim (entry.clear.apart holds) (entry.held c holds).2

/-- The test value of a CASE inside is in the clean cell `c`. -/
lemma withCaseval (entry : Entry uses first s res h D) (old : Older h c) (clean : c ∉ D)
    (apart : uses' = true → c = res → first' = true) : Entry uses' first' { s with caseval := some c } res h D := by
  refine { entry with held := ?_, clear := ⟨fun used later eq => ?_, entry.clear.domainval⟩ }
  · rintro x (⟨_, ⟨⟩⟩ | eq)
    · exact ⟨old, clean⟩
    · exact entry.held x (Or.inr eq)
  · exact absurd (apart used (Option.some.inj eq)) (by simp [later])

lemma cleared (entry : Entry uses first s res h D) {d : Nat} {g : Gen d} : res ∉ g.spoils h (D \ {res}) :=
  not_mem_dirty (fun inside => inside.2 rfl) entry.old

lemma clean_fresh (entry : Entry uses first s res h D) (fresh : Fresh h h1 c) : c ∉ D :=
  fun inside => (entry.older c inside).not_fresh fresh

lemma clean_later (entry : Entry uses first s res h D) {n : Nat} (onward : Onward (h + n) D h1 M) :
    ∀ c ∈ workCells h n, c ∉ M := by
  intro c member
  have fresh := mem_workCells.mp member
  exact onward.clean (entry.clean_fresh fresh) fresh.older

lemma not_mem_workCells (entry : Entry uses first s res h D) (n : Nat) : res ∉ workCells h n :=
  fun member => entry.old.not_fresh (mem_workCells.mp member)

end Entry

/-! ## Expressions -/

section Follows

variable (w : World) (llvm : Llvm)

/-- The code of an expression: wherever it is entered, both run through it, and the result
is clean. -/
def Follows (uses first : Bool) (g : Scope → Cell → Gen 0) : Prop :=
  ∀ ⦃s : Scope⦄ ⦃res : Cell⦄ ⦃h : Nat⦄ ⦃D : Set Cell⦄, Entry uses first s res h D →
    Runs w llvm (g s res) h D (D \ {res})

/-- The code of expressions whose values go into cells of their own. -/
def Fills (uses : Bool) (g : Scope → List Cell → Gen 0) : Prop :=
  ∀ ⦃s : Scope⦄ ⦃cells : List Cell⦄ ⦃h : Nat⦄ ⦃D : Set Cell⦄, (∀ c ∈ cells, Entry uses false s c h D) →
    Runs w llvm (g s cells) h D D

variable {w llvm} {uses uses1 uses2 first first1 : Bool} {s : Scope} {res : Cell} {h h1 : Nat} {D M : Set Cell}
  {g : Scope → Cell → Gen 0}

lemma steps_evalTo (helper : Helper) {reads : List Cell} {labels : List Nat} (clean : ∀ c ∈ reads, c ∉ D) :
    StepsOn w llvm (.eval helper reads [res]) D labels (D \ {res}) := by
  apply (steps_eval helper [res] clean).mono
  rintro c ⟨inside, out⟩
  exact ⟨inside, fun eq => out (List.mem_singleton.mpr eq)⟩

lemma follows_step {op : Scope → Cell → Op} (steps : ∀ {s res h D}, Entry uses first s res h D →
      StepsOn w llvm (op s res) D [] (D \ {res})) :
    Follows w llvm uses first fun s res => .step (op s res) :=
  fun _ _ _ _ entry => Runs.step (steps entry)

/-- A step that works on the result of an expression. -/
lemma follows_then {op : Cell → Op} (arg : Follows w llvm uses first g)
    (steps : ∀ res D, res ∉ D → StepsOn w llvm (op res) D [] D) :
    Follows w llvm uses first fun s res => (g s res).seq (.step (op res)) :=
  fun _ res _ _ entry => (arg entry).andThen (Runs.step (steps res _ entry.cleared))

lemma follows_thenEval (helper : Helper) (arg : Follows w llvm uses first g) :
    Follows w llvm uses first fun s res => (g s res).seq (.step (.eval helper [res] [res])) := by
  refine follows_then arg fun res D clean => ?_
  exact (steps_evalTo helper (List.forall_mem_singleton.mpr clean)).mono diff_sub

lemma fills_nil : Fills w llvm uses fun _ _ => .nop := fun _ _ _ _ _ => Runs.nop

lemma fills_cons {all rest : Scope → List Cell → Gen 0} (none : ∀ s, all s [] = .nop)
    (cons : ∀ s c cells, all s (c :: cells) = (g s c).seq (rest s cells))
    (head : ∀ {s c h D}, Entry uses1 false s c h D → Runs w llvm (g s c) h D D) (tail : Fills w llvm uses2 rest) :
    Fills w llvm (uses1 || uses2) all := by
  intro s cells h D entries
  cases cells with
  | nil => exact none s ▸ Runs.nop
  | cons c cells =>
    rw [cons]
    obtain ⟨entry, entries⟩ := List.forall_mem_cons.mp entries
    refine (head (entry.later (.same fun _ => id) Bool.or_inl fun _ => id)).andThen (tail fun x member => ?_)
    exact (entries x member).later (.behind fun _ => id) Bool.or_inr fun _ => id

lemma Follows.fills (follows : Follows w llvm uses first g) (entry : Entry uses false s res h D) :
    Runs w llvm (g s res) h D D :=
  (follows (entry.later (.same fun _ => id) id nofun)).weaken diff_sub

lemma Entry.cells {n : Nat} (entry : Entry uses first s res h D) (used : uses1 = true → uses = true) :
    ∀ c ∈ workCells h n, Entry uses1 first1 s c (h + n) D :=
  fun _ member => entry.child (.palloc n) used (mem_workCells.mp member)

lemma follows_call {n : Nat} {args : Scope → List Cell → Gen 0} {op : Cell → List Cell → Op}
    (fills : Fills w llvm uses args)
    (steps : ∀ res cells D, (∀ c ∈ cells, c ∉ D) → res ∉ cells → StepsOn w llvm (op res cells) D [] (D \ {res})) :
    Follows w llvm uses first fun s res =>
      .palloc n fun h => (args s (workCells h n)).seq (.step (op res (workCells h n))) := by
  intro s res h D entry
  have clean := entry.clean_later (n := n) (.behind (a := args s (workCells h n)) fun _ => id)
  refine Runs.palloc ((fills (entry.cells id)).seq (Runs.step (steps res _ _ clean (entry.not_mem_workCells n))) ?_)
    subset_dirty
  exact fun _ inside => dirty_diff inside

end Follows

end Hex.Compiler
