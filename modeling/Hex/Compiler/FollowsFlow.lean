/-
# Compiler.FollowsFlow — expressions that are evaluated in part

COALESCE, AND, OR, CASE and row comparisons: for each of them a lemma that gives `Follows`
for the expression from `Follows` for its parts.

In the middle of an AND, an OR or a row comparison the result cell differs. There the parts
that are left must not read a test value out of it, hence `Entry` with `first := false`.
-/
import Hex.Compiler.Follows

namespace Hex.Compiler

open Theory.BlockCode

section Flow

variable {w : World} {llvm : Llvm} {uses uses1 uses2 first first1 first2 : Bool} {s : Scope} {res : Cell} {h : Nat}
  {D M N : Set Cell} {g : Scope → Cell → Gen 0} {rest : Scope → Cell → Gen 1} {boolop : AndOr} {caseval : Option Cell}
  {arms : Scope → Option Cell → Cell → Gen 1} {left right : Scope → Cell → Gen 0}

/-! ## COALESCE -/

/-- The remaining arguments of a COALESCE. -/
def Tries (w : World) (llvm : Llvm) (uses first : Bool) (g : Scope → Cell → Gen 1) : Prop :=
  ∀ ⦃s : Scope⦄ ⦃res : Cell⦄ ⦃h : Nat⦄ ⦃D : Set Cell⦄, Entry uses first s res h D → res ∉ D →
    Leaves w llvm (g s res) h D D D

lemma tries_nil : Tries w llvm uses first fun _ _ => .nop := fun _ _ _ _ _ _ => Runs.nop.leaves

lemma Entry.leaves_coalesce (entry : Entry (uses1 || uses2) (first1 && first2) s res h D)
    (arg : Follows w llvm uses1 first1 g) (later : Tries w llvm uses2 first2 rest) :
    Leaves w llvm ((Gen.inner (g s res)).seq ((Gen.jump (.jumpIfNotNull res) [0] Gen.first_inside).seq (rest s res)))
      h D (D \ {res}) (D \ {res}) := by
  have own : Entry uses1 first1 s res h D := entry.later (.same fun _ => id) Bool.or_inl fun _ => Bool.and_elim_left
  have others : Entry uses2 first2 s res _ ((g s res).spoils h (D \ {res})) :=
    entry.later (.behind diff_sub) Bool.or_inr fun _ => Bool.and_elim_right
  refine (arg own).inner.leaves.andThen ?_
  exact Leaves.jump (steps_jumpIfNotNull entry.cleared) (fun _ => id) (later others entry.cleared)

lemma tries_cons (arg : Follows w llvm uses1 first1 g) (later : Tries w llvm uses2 first2 rest) :
    Tries w llvm (uses1 || uses2) (first1 && first2) fun s res =>
      (Gen.inner (g s res)).seq ((Gen.jump (.jumpIfNotNull res) [0] Gen.first_inside).seq (rest s res)) :=
  fun _ _ _ _ entry _ => (entry.leaves_coalesce arg later).mono diff_sub diff_sub

lemma follows_coalesce (arg : Follows w llvm uses1 first1 g) (later : Tries w llvm uses2 first2 rest) :
    Follows w llvm (uses1 || uses2) (first1 && first2) fun s res =>
      .block ((Gen.inner (g s res)).seq ((Gen.jump (.jumpIfNotNull res) [0] Gen.first_inside).seq (rest s res))) :=
  fun _ _ _ _ entry => Runs.block (entry.leaves_coalesce arg later)

/-! ## AND, OR and NOT -/

/-- The arguments of an AND or OR behind the first one, with the cell `anynull`. -/
def Joins (w : World) (llvm : Llvm) (uses : Bool) (g : Scope → Cell → Cell → Gen 1) : Prop :=
  ∀ ⦃s : Scope⦄ ⦃res anynull : Cell⦄ ⦃h : Nat⦄ ⦃D : Set Cell⦄, Entry uses false s res h D → anynull ∉ D →
    Older h anynull → anynull ≠ res → Ends w llvm (g s res anynull) h D (insert anynull (D \ {res}))

lemma joins_last (arg : Follows w llvm uses first g) : Joins w llvm uses fun s res anynull =>
      (Gen.inner (g s res)).seq ((Gen.jump (.boolStep boolop .last res anynull) [0] Gen.first_inside).seq .nop) := by
  intro s res anynull h D entry clean old _
  have own : Entry uses first s res h D := entry.later (.same fun _ => id) id nofun
  have cleanAny : anynull ∉ (g s res).spoils h (D \ {res}) := not_mem_dirty (fun inside => clean inside.1) old
  refine Meets.seq (arg own).leaves (Meets.mono (meets_boolStep_last entry.cleared cleanAny) fun _ _ agree => ?_)
  refine agree.mono (Set.insert_subset (subset_spoils (Set.mem_insert anynull _)) ?_)
  exact Dirty.mono (fun c => Set.mem_insert_of_mem _) (Nat.le_refl h) le_rfl

/-- An argument that is not the last one, and the others: there the result cell differs. -/
lemma Entry.ends_junction {pos : StepPos} {anynull : Cell} {rest : Scope → Cell → Cell → Gen 1}
    (entry : Entry uses false s res h D) (own : Entry uses1 first1 s res h D) (arg : Follows w llvm uses1 first1 g)
    (notLast : pos ≠ .last) (clean : anynull ∉ D) (old : Older h anynull) (ne : anynull ≠ res)
    (later : Joins w llvm uses rest) :
    Ends w llvm ((Gen.inner (g s res)).seq
      ((Gen.jump (.boolStep boolop pos res anynull) [0] Gen.first_inside).seq (rest s res anynull))) h D
      (insert anynull (D \ {res})) := by
  have others : Entry uses false s res _ ((g s res).spoils h (D \ {res})) :=
    entry.later (.behind diff_sub) id fun _ => id
  have cleanAny : anynull ∉ insert res ((g s res).spoils h (D \ {res})) := by
    rintro (eq | inside)
    · exact ne eq
    · exact not_mem_dirty (fun inside => clean inside.1) old inside
  have ends := later others.spoil cleanAny (old.mono ((g s res).grows h)) ne
  refine Ends.seq (arg own).inner.leaves (Ends.jump
    (steps_boolStep notLast entry.cleared ne) (N := insert anynull ((g s res).spoils h (D \ {res}))) ?_ (ends.mono ?_)) ?_
  · exact fun c inside => Set.mem_insert_of_mem _ inside
  · exact Set.insert_subset_insert fun c inside => inside.1.resolve_left inside.2
  · exact Set.insert_subset (subset_spoils (Set.mem_insert anynull _)) (spoils_mono fun c => Set.mem_insert_of_mem _)

lemma joins_cons {rest : Scope → Cell → Cell → Gen 1} (arg : Follows w llvm uses1 first g)
    (later : Joins w llvm uses2 rest) :
    Joins w llvm (uses1 || uses2) fun s res anynull =>
      (Gen.inner (g s res)).seq
        ((Gen.jump (.boolStep boolop .middle res anynull) [0] Gen.first_inside).seq (rest s res anynull)) := by
  intro s res anynull h D entry clean old ne
  have others : Entry uses2 false s res h D := entry.later (.same fun _ => id) Bool.or_inr fun _ => id
  exact others.ends_junction (entry.later (.same fun _ => id) Bool.or_inl nofun) arg (by decide) clean old ne later

lemma follows_junction (boolop : AndOr) {rest : Scope → Cell → Cell → Gen 1} (arg : Follows w llvm uses1 first1 g)
    (later : Joins w llvm uses2 rest) :
    Follows w llvm (uses1 || uses2) (first1 && !uses2) fun s res => .palloc 1 fun h =>
      .block ((Gen.inner (g s res)).seq
        ((Gen.jump (.boolStep boolop .first res (.work h)) [0] Gen.first_inside).seq (rest s res (.work h)))) := by
  intro s res h D entry
  have fresh : Fresh h (h + 1) (.work h) := ⟨h, Nat.le_refl h, Nat.lt_succ_self h, rfl⟩
  have own : Entry uses1 first1 s res (h + 1) D := entry.later (.palloc 1) Bool.or_inl fun _ => Bool.and_elim_left
  have others : Entry uses2 false s res (h + 1) D := by
    refine entry.later (.palloc 1) Bool.or_inr fun used both => ?_
    simp [used] at both
  refine Runs.palloc (Ends.block (others.ends_junction own arg (by decide) (entry.clean_fresh fresh) fresh.older
    (fun eq => entry.old h (Nat.le_refl h) eq.symm) later)) ?_
  exact Set.insert_subset (Or.inr fresh) subset_dirty

lemma follows_not (arg : Follows w llvm uses first g) : Follows w llvm uses first fun s res => .palloc 0 fun _ =>
      .block ((Gen.inner (g s res)).seq ((Gen.jump (.boolNotStep res) [0] Gen.first_inside).seq .nop)) := by
  intro s res h D entry
  refine Runs.block (Runs.leaves ((arg entry).inner.andThen (Runs.andThen ?_ Runs.nop)))
  exact ((steps_boolNotStep entry.cleared).mono subset_spoils).carries

/-! ## CASE -/

def Tested (caseval : Option Cell) (res : Cell) (h : Nat) (D : Set Cell) : Prop :=
  ∀ c, caseval = some c → Older h c ∧ c ∉ D ∧ c ≠ res

lemma Tested.later {h1 : Nat} (tested : Tested caseval res h D) (onward : Onward h D h1 M) :
    Tested caseval res h1 M := by
  intro c eq
  obtain ⟨old, clean, ne⟩ := tested c eq
  exact ⟨old.mono onward.grows, onward.clean clean old, ne⟩

/-- The arms of a CASE whose test value stands in `caseval`: a result ends the CASE. -/
def Picks (w : World) (llvm : Llvm) (uses first : Bool) (g : Scope → Option Cell → Cell → Gen 1) : Prop :=
  ∀ ⦃s : Scope⦄ ⦃caseval : Option Cell⦄ ⦃res : Cell⦄ ⦃h : Nat⦄ ⦃D : Set Cell⦄, Entry uses first s res h D →
    Tested caseval res h D → Leaves w llvm (g s caseval res) h D D (D \ {res})

lemma picks_nil : Picks w llvm uses first fun _ _ _ => .nop := fun _ _ _ _ _ _ _ => Runs.nop.leaves

/-- The condition of an arm reads the test value of its CASE. -/
lemma Entry.condition {uses' first' : Bool} (entry : Entry uses first s res h D)
    (tested : Tested caseval res h D) : Entry uses' first' { s with caseval := caseval } res h D := by
  cases caseval with
  | none => exact ⟨entry.older, fun c holds => entry.held c (Or.inr (holds.resolve_left nofun)), entry.old, nofun,
      entry.clear.domainval⟩
  | some c =>
    obtain ⟨old, clean, ne⟩ := tested c rfl
    exact entry.withCaseval old clean fun _ eq => absurd eq ne

/-- A result of an arm ends the CASE, one block further out; without one the block of the arm
is left. -/
lemma leaves_arm {t r : Gen 2} (condition : Runs w llvm t h D M) (clean : res ∉ t.spoils h M)
    (value : Runs w llvm r (t.piece h).heap (t.spoils h M) (t.spoils h M)) :
    Leaves w llvm (Gen.block <| t.seq <| (Gen.jump (.jumpIfNotTrue res) [0] Gen.first_inside).seq <|
      r.seq <| .jump .jump [1] Gen.second_inside : Gen 1) h D M M := by
  refine Sim.block (condition.before (Sim.seq (M := Agree (t.spoils h M)) ?_ (value.before ?_)))
  · refine Sim.mono (steps_jumpIfNotTrue clean).carries (fun _ _ => id) ⟨fun _ _ => id, ?_, fun _ _ never => never.elim⟩
    rintro k m m' ⟨rfl, agree⟩
    exact agree.mono (Dirty.mono (fun _ => id) (Nat.le_refl h) (r.grows _))
  · refine Sim.mono steps_jump.carries (fun _ _ => id) ⟨fun _ _ never => never.elim, ?_, fun _ _ never => never.elim⟩
    rintro k m m' ⟨rfl, agree⟩
    exact ⟨rfl, agree.mono (spoils_seq (b := r) fun _ => id)⟩

lemma picks_cons {test result : Scope → Cell → Gen 0} {rest : Scope → Option Cell → Cell → Gen 1}
    {uses0 first0 : Bool} (condition : Follows w llvm uses0 first0 test) (value : Follows w llvm uses1 first1 result)
    (later : Picks w llvm uses2 first2 rest) :
    Picks w llvm (uses1 || uses2) (first1 && first2) fun s caseval res =>
      (Gen.block <| (Gen.inner (test { s with caseval := caseval } res)).seq <|
        (Gen.jump (.jumpIfNotTrue res) [0] Gen.first_inside).seq <|
        (Gen.inner (result s res)).seq <| .jump .jump [1] Gen.second_inside).seq (rest s caseval res) := by
  intro s caseval res h D entry tested
  have own : Entry uses1 first1 s res _ ((test { s with caseval := caseval } res).spoils h (D \ {res})) :=
    entry.later (.behind diff_sub) Bool.or_inl fun _ => Bool.and_elim_left
  have arm := leaves_arm (t := .inner (test { s with caseval := caseval } res)) (r := .inner (result s res))
    (condition (entry.condition tested)) entry.cleared ((value own).weaken diff_sub)
  refine arm.seq (later (entry.later (.behind diff_sub) Bool.or_inr fun _ => Bool.and_elim_right)
    (tested.later (.behind diff_sub))) (spoils_mono diff_sub) diff_sub

lemma Entry.runs_caseBody
    (entry : Entry (uses1 || uses2) (first1 && first2) s res h D) (tested : Tested caseval res h D)
    (picks : Picks w llvm uses1 first1 arms) (otherwise : Follows w llvm uses2 first2 g) :
    Runs w llvm (.block ((arms s caseval res).seq (.inner (g s res)))) h D (D \ {res}) := by
  have own : Entry uses1 first1 s res h D := entry.later (.same fun _ => id) Bool.or_inl fun _ => Bool.and_elim_left
  have default : Entry uses2 first2 s res _ ((arms s caseval res).spoils h D) :=
    entry.later (.behind fun _ => id) Bool.or_inr fun _ => Bool.and_elim_right
  refine Runs.block ((picks own tested).seq (Runs.leaves (g := .inner (g s res)) (otherwise default)) ?_ subset_spoils)
  exact dirty_diff

lemma follows_casePlain (picks : Picks w llvm uses1 first1 arms) (otherwise : Follows w llvm uses2 first2 g) :
    Follows w llvm (uses1 || uses2) (first1 && first2) fun s res => .palloc 0 fun _ =>
      Gen.nop.seq (.block ((arms s none res).seq (.inner (g s res)))) :=
  fun _ _ _ _ entry => Runs.skip (fun _ => ⟨rfl, rfl⟩) (entry.runs_caseBody (fun _ never => by cases never) picks otherwise)

/-- A CASE with a test expression, whose value gets a cell of its own. -/
lemma follows_caseTest {default : Scope → Cell → Gen 0}
    {uses0 first0 : Bool} (varlena : Bool) (arg : Follows w llvm uses0 first0 g)
    (picks : Picks w llvm uses1 first1 arms) (otherwise : Follows w llvm uses2 first2 default) :
    Follows w llvm (uses0 || uses1 || uses2) (first1 && first2) fun s res => .palloc 1 fun h =>
      ((g s (.work h)).seq (if varlena then .step (.makeReadonly (.work h) (.work h)) else .nop)).seq
        (.block ((arms s (some (.work h)) res).seq (.inner (default s res)))) := by
  intro s res h D entry
  have fresh : Fresh h (h + 1) (.work h) := ⟨h, Nat.le_refl h, Nat.lt_succ_self h, rfl⟩
  have own : Entry uses0 first0 s (.work h) (h + 1) D :=
    entry.child (.palloc 1) (fun used => Bool.or_inl (Bool.or_inl used)) fresh
  have tested : Runs w llvm ((g s (.work h)).seq
      (if varlena then .step (.makeReadonly (.work h) (.work h)) else .nop)) (h + 1) D D := by
    refine ((arg own).weaken diff_sub).seq ?_ (Set.Subset.refl ((g s (.work h)).spoils (h + 1) D))
    cases varlena with
    | false => exact Runs.nop
    | true =>
      refine (Runs.step (steps_makeReadonly ?_)).weaken diff_sub
      exact not_mem_dirty (entry.clean_fresh fresh) fresh.older
  have onward := tested.onward fun _ => id
  have body : Entry (uses1 || uses2) (first1 && first2) s res _ _ := entry.later (Onward.trans (.palloc 1) onward)
    (fun used => by rw [Bool.or_assoc]; exact Bool.or_inr used) fun _ => id
  refine Runs.palloc (tested.seq (body.runs_caseBody ?_ picks otherwise) dirty_diff) subset_dirty
  rintro c ⟨⟩
  exact ⟨fresh.older.mono onward.grows, onward.clean (entry.clean_fresh fresh) fresh.older,
    fun same => entry.old h (Nat.le_refl h) same.symm⟩

/-! ## Row comparisons -/

/-- Where the columns of a row comparison end: with the comparison in the result cell, or
with NULL in it, behind the final step. -/
def RowPost (M N : Set Cell) (res : Cell) : Post Machine Machine where
  next := RowAgree M res
  exit k m m' := (k = 0 ∧ RowAgree M res m m') ∨ (k = 1 ∧ Agree N m m')
  done _ _ := False

lemma RowAgree.mono {m m' : Machine} (agree : RowAgree M res m m') (sub : M ⊆ insert res D) : RowAgree D res m m' :=
  ⟨agree.1.mono (Set.insert_subset (Set.mem_insert res D) sub), agree.2⟩

lemma RowPost.le (res : Cell) {M' N' : Set Cell} (next : M ⊆ insert res M') (exit : N ⊆ N') :
    (RowPost M N res).Le (RowPost M' N' res) := by
  refine ⟨fun _ _ agree => agree.mono next, ?_, fun _ _ never => never.elim⟩
  rintro k m m' (⟨rfl, agree⟩ | ⟨rfl, agree⟩)
  · exact Or.inl ⟨rfl, agree.mono next⟩
  · exact Or.inr ⟨rfl, agree.mono exit⟩

/-- The code of columns runs to `RowPost`. -/
def Rows (w : World) (llvm : Llvm) (g : Gen 2) (h : Nat) (P : Machine → Machine → Prop) (D : Set Cell) (res : Cell) :
    Prop :=
  Sim (Op.typed w) (interpStep w) (emittedStep w llvm) P (g.piece h).code
    (RowPost (g.spoils h D) (g.spoils h (D \ {res})) res)

/-- The columns behind the first one. -/
def Ranks (w : World) (llvm : Llvm) (uses : Bool) (g : Scope → Cell → Gen 2) : Prop :=
  ∀ ⦃s : Scope⦄ ⦃res : Cell⦄ ⦃h : Nat⦄ ⦃D : Set Cell⦄, Entry uses false s res h D →
    Rows w llvm (g s res) h (RowAgree D res) D res

lemma ranks_nil : Ranks w llvm uses fun _ _ => .nop :=
  fun _ _ _ _ _ => Sim.skip fun _ _ agree => agree.mono fun _ inside => Or.inr (Or.inl inside)

lemma Entry.rows_column (proc : Func) {rest : Scope → Cell → Gen 2}
    {uses3 : Bool} (keeps : llvm.Keeps) (entry : Entry (uses1 || uses2 || uses3) (!uses3) s res h D)
    (leftFollows : Follows w llvm uses1 first1 left) (rightFollows : Follows w llvm uses2 first2 right)
    (later : Ranks w llvm uses3 rest) :
    Rows w llvm (.palloc 2 fun h =>
        (Gen.inner (left s (.work h))).seq <| (Gen.inner (right s (.work (h + 1)))).seq <|
        (Gen.jump (.rowCompareStep res { func := proc, args := [.work h, .work (h + 1)] }) [0, 1]
          Gen.both_inside).seq <| rest s res) h (Agree D) D res := by
  have cells : ∀ c ∈ workCells h 2, Entry (uses1 || uses2) false s c (h + 2) D := entry.cells Bool.or_inl
  have ranLeft : Runs w llvm (left s (.work h)) (h + 2) D D :=
    (leftFollows ((cells _ List.mem_cons_self).later (.same fun _ => id) Bool.or_inl nofun)).weaken diff_sub
  have onLeft := ranLeft.onward fun _ => id
  have ranRight : Runs w llvm (right s (.work (h + 1))) _ _ ((left s (.work h)).spoils (h + 2) D) :=
    (rightFollows ((cells _ (by simp [workCells])).later onLeft Bool.or_inr nofun)).weaken diff_sub
  have onRight := onLeft.trans (ranRight.onward fun _ => id)
  have onward := Onward.trans (.palloc 2) onRight
  have others : Entry uses3 false s res _ _ := entry.later onward Bool.or_inr fun used first => by
    simp [used] at first
  have le := RowPost.le res (fun c inside => Or.inr (onward.spoils (a := rest s res) inside))
    ((onward.diff (E := {res})).spoils (a := rest s res))
  refine Runs.before (g := .inner (left s (.work h))) ranLeft (Runs.before (g := .inner (right s (.work (h + 1))))
    ranRight (Sim.seq ?_ (Sim.mono (later others) (fun _ _ => id) le)))
  refine Sim.mono (steps_rowCompareStep keeps (entry.clean_later onRight)).carries (fun _ _ => id)
    ⟨fun _ _ => id, fun k m m' ended => le.exit k m m' ?_, fun _ _ never => never.elim⟩
  rcases ended with ⟨rfl, agree⟩ | ⟨rfl, agree⟩
  · exact Or.inl ⟨rfl, agree.mono fun c inside => Or.inr (Or.inl inside)⟩
  · exact Or.inr ⟨rfl, agree.mono subset_spoils⟩

lemma ranks_cons (proc : Func) {rest : Scope → Cell → Gen 2} {uses3 : Bool}
    (keeps : llvm.Keeps) (leftFollows : Follows w llvm uses1 first1 left)
    (rightFollows : Follows w llvm uses2 first2 right) (later : Ranks w llvm uses3 rest) :
    Ranks w llvm (uses1 || uses2 || uses3) fun s res => .palloc 2 fun h =>
      (Gen.inner (left s (.work h))).seq <| (Gen.inner (right s (.work (h + 1)))).seq <|
      (Gen.jump (.rowCompareStep res { func := proc, args := [.work h, .work (h + 1)] }) [0, 1]
        Gen.both_inside).seq <| rest s res := by
  intro s res h D entry
  have spoiled := (entry.spoil.later (.same fun _ => id) id nofun).rows_column proc keeps leftFollows rightFollows later
  refine Sim.mono spoiled (fun _ _ agree => agree.1) (RowPost.le res ?_ (spoils_mono ?_))
  · rintro c ((rfl | inside) | fresh)
    · exact Set.mem_insert c _
    · exact Or.inr (Or.inl inside)
    · exact Or.inr (Or.inr fresh)
  · exact fun c inside => ⟨inside.1.resolve_left inside.2, inside.2⟩

lemma follows_rowCompare {columns : Scope → Cell → Gen 2} (rctype : RowCompareType)
    (rows : ∀ {s res h D}, Entry uses first s res h D → Rows w llvm (columns s res) h (Agree D) D res) :
    Follows w llvm uses first fun s res =>
      .block ((Gen.block (columns s res)).seq (.step (.rowCompareFinal res rctype))) := by
  intro s res h D entry
  refine Sim.block (Sim.seq (M := RowAgree ((columns s res).spoils h D) res) (Sim.block ?_) ?_)
  · refine Sim.mono (rows entry) (fun _ _ => id) ⟨fun _ _ => id, ?_, fun _ _ never => never.elim⟩
    rintro k m m' (⟨rfl, agree⟩ | ⟨rfl, agree⟩) <;> exact agree
  · refine Sim.instr fun m m' agree _ => (related_rowCompareFinal rctype agree).mono (Post.through_le fun _ _ agree => ?_)
    exact agree.mono dirty_diff

lemma Rows.nop {g : Gen 2} (rows : Rows w llvm g h (Agree D) D res) : Rows w llvm (g.seq .nop) h (Agree D) D res :=
  Sim.seq rows (Sim.skip fun _ _ => id)

lemma rows_const (con : NullableDatum) (D : Set Cell) (res : Cell) (h : Nat) :
    Rows w llvm (Gen.nop.seq (.step (.const res con))) h (Agree D) D res := by
  refine Sim.seq (M := Agree D) (Sim.skip fun _ _ => id) (Sim.instr fun m m' agree _ => ?_)
  refine ⟨_, congrArg Flow.next (storeResult_eq m' res con), ?_⟩
  have stored : Agree (D \ {res}) (m.set res con) (m'.set res con) := agree.set rfl
  refine ⟨stored.mono fun c inside => Or.inr (Or.inl inside.1), ?_⟩
  rw [Machine.mem_set_self, Machine.mem_set_self]

end Flow

end Hex.Compiler
