/-
# Compiler.Kept — programs keep what they rely on

The induction over nodes for `Tidy`, and the builders.

* `tidy_gen`: the code of a node writes its result and cells of its own. The cells of constant
  arguments, of the operands of an input function and of the columns that a row lacks are filled
  by the compiler and not written. Its steps have the jump targets that they need, and the columns
  that they read are those of the Vars of the node and of the CHECK expressions in it.
* **`Source.body_each`**, **`Source.body_relies`**: what kind of steps a program consists of, and
  that it leaves alone what the compiler stored for it.
-/
import Hex.Compiler.Footprint

namespace Hex.Compiler

open Theory.BlockCode

/-! ## Opcodes and cells -/

lemma funcOpcode_sets (setup : Setup) (res : Cell) (f : FuncCall) : (funcOpcode setup res f).Sets res := by
  unfold funcOpcode
  dsimp only
  split <;> split <;> exact ⟨rfl, rfl, rfl⟩

lemma boolTestOpcode_sets (booltesttype : BoolTestType) (res : Cell) :
    (boolTestOpcode booltesttype res).Sets res := by
  cases booltesttype <;> exact ⟨rfl, rfl, rfl⟩

lemma varOpcode_written (v : Var) (res : Cell) : (varOpcode v res).written = [res] := by
  unfold varOpcode
  split
  · rfl
  · split <;> rfl

lemma boolOpcode_written (boolop : BoolOp) (off nargs : Nat) (res anynull : Cell) :
    ∀ c ∈ (boolOpcode boolop off nargs res anynull).written, c = res ∨ boolop ≠ .not ∧ c = anynull := by
  cases boolop <;> simp [boolOpcode, Op.written]

lemma boolOpcode_jumps (boolop : BoolOp) (off nargs : Nat) (res anynull : Cell) :
    (boolOpcode boolop off nargs res anynull).jumps ≤ 1 := by
  cases boolop <;> simp only [boolOpcode, Op.jumps] <;> (try split) <;> omega

lemma boolOpcode_column (boolop : BoolOp) (off nargs : Nat) (res anynull : Cell) :
    (boolOpcode boolop off nargs res anynull).column = none := by
  cases boolop <;> rfl

def argCells (constant : Bool) : List Node → List Cell → List Cell
  | arg :: rest, c :: cells =>
    if arg.const?.isSome = constant then c :: argCells constant rest cells else argCells constant rest cells
  | _, _ => []

lemma argCells_kept {constant : Bool} {arg : Node} (same : arg.const?.isSome = constant) (rest : List Node) (c : Cell)
    (cells : List Cell) : argCells constant (arg :: rest) (c :: cells) = c :: argCells constant rest cells := by
  rw [argCells, if_pos same]

lemma argCells_skipped {constant : Bool} {arg : Node} (other : arg.const?.isSome ≠ constant) (rest : List Node)
    (c : Cell) (cells : List Cell) : argCells constant (arg :: rest) (c :: cells) = argCells constant rest cells := by
  rw [argCells, if_neg other]

lemma argCells_sublist (constant : Bool) : ∀ (args : List Node) (cells : List Cell),
    (argCells constant args cells).Sublist cells
  | [], _ | _ :: _, [] => by
    simp only [argCells]
    exact List.nil_sublist _
  | arg :: rest, c :: cells => by
    simp only [argCells]
    split
    · exact (argCells_sublist constant rest cells).cons_cons c
    · exact (argCells_sublist constant rest cells).cons c

lemma argCells_disjoint : ∀ (args : List Node) (cells : List Cell), cells.Nodup →
    ∀ c ∈ argCells true args cells, c ∉ argCells false args cells
  | [], _, _ | _ :: _, [], _ => by simp [argCells]
  | arg :: rest, c :: cells, nodup => by
    have ih := argCells_disjoint rest cells nodup.of_cons
    have new (constant : Bool) : c ∉ argCells constant rest cells :=
      fun member => (List.nodup_cons.mp nodup).1 ((argCells_sublist constant rest cells).subset member)
    intro c' member
    cases const : arg.const?.isSome with
    | true =>
      rw [argCells_kept const, List.mem_cons] at member
      rw [argCells_skipped (by simp [const])]
      rcases member with rfl | member
      · exact new false
      · exact ih c' member
    | false =>
      rw [argCells_skipped (by simp [const])] at member
      rw [argCells_kept const, List.mem_cons, not_or]
      exact ⟨fun same => new true (same ▸ member), ih c' member⟩

/-- The arguments of a function are in cells that are written, but for constants. -/
def TidyArgs (P : Instr Op Nat → Prop) (setup : Setup) (args : List Node) (s : Scope) : Prop :=
  ∀ (cells : List Cell) {out : Cell → Prop} {given : List Cell}, (∀ c ∈ argCells false args cells, out c) →
    (∀ c ∈ argCells true args cells, c ∈ given) → Tidy P (genFuncArgs setup args s cells) out given

section Tidy

variable {P : Instr Op Nat → Prop} (admits : Admits P)

include admits in
lemma TidyArgs.call {setup : Setup} {args : List Node} {s : Scope} {res : Cell} {out : Cell → Prop} {given : List Cell}
    (tidy : TidyArgs P setup args s) (op : List Cell → Op) (inside : out res) (sets : ∀ cells, (op cells).Sets res) :
    Tidy P (.palloc args.length fun h =>
      (genFuncArgs setup args s (workCells h args.length)).seq (.step (op (workCells h args.length)))) out given := by
  have part (h : Nat) {c : Cell} (constant : Bool) (member : c ∈ argCells constant args (workCells h args.length)) :
      Fresh h (h + args.length) c := mem_workCells.mp ((argCells_sublist constant args _).subset member)
  refine Tidy.palloc (fun h c => c ∈ argCells false args (workCells h args.length))
    (fun h => argCells true args (workCells h args.length)) (fun h => ?_) (fun h c => part h false)
    (fun h c => part h true) fun h => argCells_disjoint args _ (nodup_workCells h _)
  refine Tidy.seq (tidy _ ?_ ?_) (Tidy.single admits (Or.inl inside) (sets _))
  · exact fun c member => Or.inr member
  · exact fun c member => List.mem_append_left _ member

lemma tidy_nulls {out : Cell → Prop} {given : List Cell} : ∀ (n : Nat) (cells : List Cell),
    (∀ c ∈ cells.drop n, c ∈ given) → Tidy P (genNulls n cells) out given
  | n, [], _ => by cases n <;> exact Tidy.nop
  | 0, _ :: cells, sub =>
    Tidy.seq (Tidy.store (sub _ List.mem_cons_self) _)
      (tidy_nulls 0 cells fun c member => sub c (List.mem_cons_of_mem _ member))
  | n + 1, _ :: cells, sub => Tidy.seq (Tidy.preset _ _) (tidy_nulls n cells sub)

/-! ## Nodes -/

variable (setup : Setup)

include admits

-- some members of the block need `admits` only for the others
set_option linter.unusedSectionVars false in
mutual

/-- **The code of a node writes only its result and cells of its own, and keeps what it relies on.** -/
theorem tidy_gen (n : Node) (s : Scope) (res : Cell) {out : Cell → Prop} {given : List Cell} (inside : out res)
    (seen : ReadsAll P n.vars) (checks : ReadsAll P n.checkVars) : Tidy P (gen setup n s res) out given := by
  cases n with (simp only [gen]; simp only [Node.vars, Node.checkVars, readsAll_append] at seen checks)
  | var v =>
    rw [readsAll_singleton] at seen
    refine Tidy.ofStep (seen.var res) fun c member => ?_
    rw [varOpcode_written, List.mem_singleton] at member
    exact member ▸ inside
  | const | param | aggref | groupingFunc | windowFunc | subPlan | alternativeSubPlan
  | caseTestExpr | sqlValueFunction | coerceToDomainValue | currentOfExpr | nextValueExpr =>
    exact Tidy.single admits inside ⟨rfl, rfl, rfl⟩
  | subscriptingRef container refexpr upper lower assgn =>
    obtain ⟨⟨⟨upperSeen, lowerSeen⟩, refSeen⟩, assgnSeen⟩ := seen
    obtain ⟨⟨⟨upperChecks, lowerChecks⟩, refChecks⟩, assgnChecks⟩ := checks
    refine Tidy.work fun h => Tidy.block (Tidy.seq (Tidy.inner ?_) ?_)
    · exact tidy_gen refexpr s res (Or.inl inside) refSeen refChecks
    have own (k : Nat) (lt : k < 3) : Fresh h (h + 3) (.work (h + k)) :=
      ⟨h + k, Nat.le_add_right h k, Nat.add_lt_add_left lt h, rfl⟩
    have sub : Fresh h (h + 3) (.work h) := own 0 (by decide)
    refine Tidy.seq (Tidy.ite Tidy.nop (Tidy.jump admits nofun (Nat.le_refl 1) rfl)) ?_
    refine Tidy.seq (tidy_subscripts upper s container res _ _ _ _ (Or.inl inside) (Or.inr sub) upperSeen upperChecks) ?_
    refine Tidy.seq (tidy_subscripts lower s container res _ _ _ _ (Or.inl inside) (Or.inr sub) lowerSeen lowerChecks) ?_
    exact Tidy.inner (tidy_assignment assgn s container res _ _ (Or.inl inside) (Or.inr (own 1 (by decide)))
      (Or.inr (own 2 (by decide))) assgnSeen assgnChecks)
  | funcExpr f args | opExpr f args =>
    exact (tidy_funcArgs args s seen checks).call admits
      (fun cells => funcOpcode setup res { func := f, args := cells }) inside fun _ => funcOpcode_sets setup res _
  | distinctExpr f args =>
    exact (tidy_funcArgs args s seen checks).call admits (fun cells => .distinct res { func := f, args := cells }) inside
      fun _ => ⟨rfl, rfl, rfl⟩
  | nullIfExpr f args =>
    exact (tidy_funcArgs args s seen checks).call admits (fun cells => .nullif res { func := f, args := cells }) inside
      fun _ => ⟨rfl, rfl, rfl⟩
  | scalarArrayOpExpr f useOr scalararg arrayarg =>
    refine Tidy.work fun h => Tidy.seq ?_ (Tidy.seq ?_ (Tidy.single admits (Or.inl inside) ⟨rfl, rfl, rfl⟩))
    · exact tidy_gen scalararg s _ (Or.inr ⟨h, Nat.le_refl h, by omega, rfl⟩) seen.1 checks.1
    · exact tidy_gen arrayarg s res (Or.inl inside) seen.2 checks.2
  | boolExpr boolop args =>
    refine Tidy.work fun h => Tidy.block
      (tidy_boolArgs args s boolop _ res _ 0 (Or.inl inside) (fun isAndOr => ?_) seen checks)
    rw [if_neg isAndOr]
    exact Or.inr ⟨h, Nat.le_refl h, Nat.lt_succ_self h, rfl⟩
  | fieldSelect _ _ arg | convertRowtypeExpr _ _ arg =>
    exact Tidy.seq (tidy_gen arg s res inside seen checks) (Tidy.single admits inside ⟨rfl, rfl, rfl⟩)
  | arrayCoerceExpr _ arg _ =>
    exact Tidy.seq (tidy_gen arg s res inside seen.1 checks) (Tidy.single admits inside ⟨rfl, rfl, rfl⟩)
  | nullTest _ argisrow arg =>
    refine Tidy.seq (tidy_gen arg s res inside seen checks) (Tidy.single admits inside ?_)
    cases argisrow <;> exact ⟨rfl, rfl, rfl⟩
  | booleanTest booltesttype arg =>
    exact Tidy.seq (tidy_gen arg s res inside seen checks)
      (Tidy.single admits inside (boolTestOpcode_sets booltesttype res))
  | fieldStore resulttype ncolumns arg newvals fieldnums =>
    refine Tidy.work fun h => Tidy.seq (tidy_gen arg s res (Or.inl inside) seen.1 checks.1) (Tidy.seq ?_ (Tidy.seq ?_ ?_))
    · exact Tidy.step admits (fun c member => Or.inr (mem_workCells.mp member)) rfl rfl
    · exact tidy_newvals newvals s fieldnums h ncolumns (fun c fresh => Or.inr fresh) seen.2 checks.2
    · exact Tidy.single admits (Or.inl inside) ⟨rfl, rfl, rfl⟩
  | relabelType arg => exact tidy_gen arg s res inside seen checks
  | coerceViaIo outfunc infunc typioparam arg =>
    refine Tidy.seq (tidy_gen arg s res inside seen checks) ?_
    refine Tidy.palloc (fun h c => c = .work h ∨ c = .work (h + 1))
      (fun h => [.work (h + 2), .work (h + 3)]) (fun h => ?_) ?_ ?_ ?_
    · refine Tidy.seq (Tidy.store (by simp) _) (Tidy.seq (Tidy.store (by simp) _)
        (Tidy.step admits (fun c member => ?_) rfl rfl))
      simp only [Op.written, workCells, List.range'_succ, List.map_cons, List.take_succ_cons, List.take_zero,
        List.cons_append, List.nil_append, List.mem_cons, List.not_mem_nil, or_false] at member
      rcases member with rfl | rfl | rfl
      · exact Or.inl inside
      · exact Or.inr (Or.inl rfl)
      · exact Or.inr (Or.inr rfl)
    · rintro h c (rfl | rfl)
      · exact ⟨h, Nat.le_refl h, by omega, rfl⟩
      · exact ⟨h + 1, by omega, by omega, rfl⟩
    · intro h c member
      simp only [List.mem_cons, List.not_mem_nil, or_false] at member
      rcases member with rfl | rfl
      · exact ⟨h + 2, by omega, by omega, rfl⟩
      · exact ⟨h + 3, by omega, by omega, rfl⟩
    · intro h c member
      simp only [List.mem_cons, List.not_mem_nil, or_false] at member
      rcases member with rfl | rfl <;> simp
  | caseExpr arg varlena args defresult =>
    refine Tidy.work fun h => Tidy.seq (tidy_caseArg arg s varlena _ (fun given => ?_) seen.1.1 checks.1.1) (Tidy.block ?_)
    · rw [if_pos given]
      exact Or.inr ⟨h, Nat.le_refl h, Nat.lt_succ_self h, rfl⟩
    · exact Tidy.seq (tidy_caseArms args s _ res (Or.inl inside) seen.1.2 checks.1.2)
        (Tidy.inner (tidy_gen defresult s res (Or.inl inside) seen.2 checks.2))
  | arrayExpr _ _ args | minMaxExpr _ _ _ args =>
    refine Tidy.work fun h => Tidy.seq (tidy_array args s _ (fun c member => ?_) seen checks)
      (Tidy.single admits (Or.inl inside) ⟨rfl, rfl, rfl⟩)
    exact Or.inr (mem_workCells.mp member)
  | rowExpr rowType attrs args =>
    have part (h : Nat) {c : Cell} {cells : List Cell} (sub : cells ⊆ workCells h (max args.length attrs.length))
        (member : c ∈ cells) : Fresh h (h + max args.length attrs.length) c := mem_workCells.mp (sub member)
    refine Tidy.palloc (fun h c => c ∈ (workCells h (max args.length attrs.length)).take (min args.length attrs.length))
      (fun h => (workCells h (max args.length attrs.length)).drop (min args.length attrs.length))
      (fun h => ?_) (fun h c => part h (List.take_subset _ _)) (fun h c => part h (List.drop_subset _ _)) ?_
    · refine Tidy.seq (tidy_nulls _ _ fun c member => List.mem_append_left _ member) (Tidy.seq ?_ ?_)
      · exact tidy_row args s attrs _ (fun c member => Or.inr member) seen checks
      · exact Tidy.single admits (Or.inl inside) ⟨rfl, rfl, rfl⟩
    · intro h c last first
      have nodup := nodup_workCells h (max args.length attrs.length)
      rw [← List.take_append_drop (min args.length attrs.length) (workCells h _)] at nodup
      exact (List.nodup_append.mp nodup).2.2 c first c last rfl
  | rowCompareExpr rctype columns =>
    exact Tidy.block (Tidy.seq (Tidy.block (Tidy.seq (tidy_rowCompare columns s res inside seen.1 seen.2 checks)
      (Tidy.ite (Tidy.single admits inside ⟨rfl, rfl, rfl⟩) Tidy.nop))) (Tidy.single admits inside ⟨rfl, rfl, rfl⟩))
  | coalesceExpr args => exact Tidy.block (tidy_coalesce args s res inside seen checks)
  | xmlExpr op namedArgs args =>
    refine Tidy.work fun h => Tidy.seq (tidy_array namedArgs s _ (fun c member => ?_) seen.1 checks.1)
      (Tidy.seq (tidy_array args s _ (fun c member => ?_) seen.2 checks.2)
        (Tidy.single admits (Or.inl inside) ⟨rfl, rfl, rfl⟩))
    · exact Or.inr ((mem_workCells.mp member).mono (Nat.le_refl h) (by omega))
    · exact Or.inr ((mem_workCells.mp member).mono (by omega) (by omega))
  | coerceToDomain typeName varlena arg constraints =>
    exact Tidy.seq (tidy_gen arg s res inside seen checks.1)
      (tidy_constraints constraints s typeName varlena res none none inside nofun checks.2)

lemma tidy_funcArgs : ∀ (args : List Node) (s : Scope), ReadsAll P (listVars args) →
    ReadsAll P (listCheckVars args) → TidyArgs P setup args s
  | [], _, _, _, _, _, _, _, _ | _ :: _, _, _, _, [], _, _, _, _ => by
    simp only [genFuncArgs]
    exact Tidy.nop
  | arg :: rest, s, seen, checks, c :: cells, out, given, others, constants => by
    simp only [listVars, listCheckVars, readsAll_append] at seen checks
    have head (inside : out c) : Tidy P (gen setup arg s c) out given := tidy_gen arg s c inside seen.1 checks.1
    have tail := tidy_funcArgs rest s seen.2 checks.2
    simp only [genFuncArgs]
    cases const : arg.const? with
    | some con =>
      rw [argCells_skipped (by simp [const])] at others
      rw [argCells_kept (by simp [const])] at constants
      exact Tidy.seq (Tidy.store (constants c List.mem_cons_self) con)
        (tail cells others fun c' member => constants c' (List.mem_cons_of_mem c member))
    | none =>
      rw [argCells_kept (by simp [const])] at others
      rw [argCells_skipped (by simp [const])] at constants
      exact Tidy.seq (head (others c List.mem_cons_self))
        (tail cells (fun c' member => others c' (List.mem_cons_of_mem c member)) constants)

lemma tidy_array (args : List Node) (s : Scope) (cells : List Cell) {out : Cell → Prop} {given : List Cell}
    (inside : ∀ c ∈ cells, out c) (seen : ReadsAll P (listVars args)) (checks : ReadsAll P (listCheckVars args)) :
    Tidy P (genArray setup args s cells) out given := by
  rcases args with _ | ⟨e, rest⟩ <;> rcases cells with _ | ⟨c, cells⟩ <;> simp only [genArray]
  case cons.cons =>
    simp only [listVars, listCheckVars, readsAll_append] at seen checks
    exact Tidy.seq (tidy_gen e s c (inside c List.mem_cons_self) seen.1 checks.1)
      (tidy_array rest s cells (fun c' member => inside c' (List.mem_cons_of_mem c member)) seen.2 checks.2)
  all_goals exact Tidy.nop

lemma tidy_row : ∀ (args : List Node) (s : Scope) (attrs : List RowAttr) (cells : List Cell) {out : Cell → Prop}
    {given : List Cell}, (∀ c ∈ cells.take (min args.length attrs.length), out c) → ReadsAll P (listVars args) →
    ReadsAll P (listCheckVars args) → Tidy P (genRow setup args s attrs cells) out given
  | [], _, _, _, _, _, _, _, _ | _ :: _, _, [], _, _, _, _, _, _ | _ :: _, _, _ :: _, [], _, _, _, _, _ => by
    simp only [genRow]
    exact Tidy.nop
  | e :: rest, s, att :: attrs, c :: cells, _, _, inside, seen, checks => by
    simp only [listVars, listCheckVars, readsAll_append] at seen checks
    simp only [genRow]
    rw [List.length_cons, List.length_cons, Nat.succ_min_succ, List.take_succ_cons] at inside
    have head := inside c List.mem_cons_self
    exact Tidy.seq (Tidy.ite (Tidy.single admits head ⟨rfl, rfl, rfl⟩) (tidy_gen e s c head seen.1 checks.1))
      (tidy_row rest s attrs cells (fun c' member => inside c' (List.mem_cons_of_mem c member)) seen.2 checks.2)

lemma tidy_boolArgs (args : List Node) (s : Scope) (boolop : BoolOp) (nargs : Nat) (res anynull : Cell) (off : Nat)
    {out : Cell → Prop} {given : List Cell} (inside : out res) (flag : (boolop ≠ .not → out anynull))
    (seen : ReadsAll P (listVars args)) (checks : ReadsAll P (listCheckVars args)) :
    Tidy P (genBoolArgs setup args s boolop nargs res anynull off) out given := by
  cases args with simp only [genBoolArgs]
  | nil => exact Tidy.nop
  | cons e rest =>
    simp only [listVars, listCheckVars, readsAll_append] at seen checks
    refine Tidy.seq (Tidy.inner (tidy_gen e s res inside seen.1 checks.1)) (Tidy.seq (Tidy.jump admits
      (fun c member => ?_) (boolOpcode_jumps _ _ _ _ _) (boolOpcode_column _ _ _ _ _))
      (tidy_boolArgs rest s boolop nargs res anynull (off + 1) inside flag seen.2 checks.2))
    rcases boolOpcode_written boolop off nargs res anynull c member with rfl | ⟨isAndOr, rfl⟩
    · exact inside
    · exact flag isAndOr

lemma tidy_coalesce (args : List Node) (s : Scope) (res : Cell) {out : Cell → Prop} {given : List Cell}
    (inside : out res) (seen : ReadsAll P (listVars args)) (checks : ReadsAll P (listCheckVars args)) :
    Tidy P (genCoalesce setup args s res) out given := by
  cases args with simp only [genCoalesce]
  | nil => exact Tidy.nop
  | cons e rest =>
    simp only [listVars, listCheckVars, readsAll_append] at seen checks
    exact Tidy.seq (Tidy.inner (tidy_gen e s res inside seen.1 checks.1)) (Tidy.seq
      (Tidy.jump admits nofun (Nat.le_refl 1) rfl) (tidy_coalesce rest s res inside seen.2 checks.2))

lemma tidy_caseArg (arg : Option Node) (s : Scope) (varlena : Bool) (test : Cell) {out : Cell → Prop}
    {given : List Cell} (inside : (arg.isSome = true → out test)) (seen : ReadsAll P (optionVars arg))
    (checks : ReadsAll P (optionCheckVars arg)) : Tidy P (genCaseArg setup arg s varlena test) out given := by
  cases arg with simp only [genCaseArg]
  | none => exact Tidy.nop
  | some arg =>
    simp only [optionVars, optionCheckVars] at seen checks
    exact Tidy.seq (tidy_gen arg s test (inside rfl) seen checks)
      (Tidy.ite (Tidy.single admits (inside rfl) ⟨rfl, rfl, rfl⟩) Tidy.nop)

lemma tidy_caseArms (arms : List CaseWhen) (s : Scope) (test : Option Cell) (res : Cell) {out : Cell → Prop}
    {given : List Cell} (inside : out res) (seen : ReadsAll P (armsVars arms))
    (checks : ReadsAll P (armsCheckVars arms)) : Tidy P (genCaseArms setup arms s test res) out given := by
  cases arms with
  | nil =>
    simp only [genCaseArms]
    exact Tidy.nop
  | cons entry rest =>
    obtain ⟨expr, result⟩ := entry
    simp only [armsVars, armsCheckVars, readsAll_append] at seen checks
    simp only [genCaseArms]
    refine Tidy.seq (Tidy.block ?_) (tidy_caseArms rest s test res inside seen.2 checks.2)
    refine Tidy.seq (Tidy.inner (tidy_gen expr _ res inside seen.1.1 checks.1.1)) ?_
    refine Tidy.seq (Tidy.jump admits nofun (Nat.le_refl 1) rfl) ?_
    exact Tidy.seq (Tidy.inner (tidy_gen result s res inside seen.1.2 checks.1.2))
      (Tidy.jump admits nofun (Nat.le_refl 1) rfl)

lemma tidy_rowCompare (columns : List RowColumn) (s : Scope) (res : Cell) {out : Cell → Prop} {given : List Cell}
    (inside : out res) (lefts : ReadsAll P (leftVars columns)) (rights : ReadsAll P (rightVars columns))
    (checks : ReadsAll P (columnsCheckVars columns)) : Tidy P (genRowCompare setup columns s res) out given := by
  rcases columns with _ | ⟨⟨oper, left, right⟩, rest⟩ <;> simp only [genRowCompare]
  · exact Tidy.nop
  · simp only [leftVars, rightVars, columnsCheckVars, readsAll_append] at lefts rights checks
    refine Tidy.work fun h => Tidy.seq (Tidy.inner ?_) (Tidy.seq (Tidy.inner ?_) (Tidy.seq ?_
      (tidy_rowCompare rest s res (Or.inl inside) lefts.2 rights.2 checks.2)))
    · exact tidy_gen left s _ (Or.inr ⟨h, Nat.le_refl h, by omega, rfl⟩) lefts.1 checks.1.1
    · exact tidy_gen right s _ (Or.inr ⟨h + 1, by omega, by omega, rfl⟩) rights.1 checks.1.2
    · refine Tidy.jump admits (fun c member => ?_) (Nat.le_refl 2) rfl
      rw [List.mem_singleton.mp member]
      exact Or.inl inside

lemma tidy_subscripts (subscripts : List (Option Node)) (s : Scope) (container : Oid) (res sub : Cell)
    (isupper isAssignment : Bool) (i : Nat) {out : Cell → Prop} {given : List Cell} (inside : out res) (inside' : out sub)
    (seen : ReadsAll P (subscriptsVars subscripts)) (checks : ReadsAll P (subscriptsCheckVars subscripts)) :
    Tidy P (genSubscripts setup subscripts s container res sub isupper isAssignment i) out given := by
  rcases subscripts with _ | ⟨_ | e, rest⟩ <;> simp only [genSubscripts]
  · exact Tidy.nop
  · simp only [subscriptsVars, subscriptsCheckVars] at seen checks
    exact tidy_subscripts rest s container res sub isupper isAssignment (i + 1) inside inside' seen checks
  · simp only [subscriptsVars, subscriptsCheckVars, readsAll_append] at seen checks
    refine Tidy.seq (Tidy.inner (tidy_gen e s sub inside' seen.1 checks.1)) (Tidy.seq (Tidy.jump admits
      (fun c member => ?_) (Nat.le_refl 1) rfl)
      (tidy_subscripts rest s container res sub isupper isAssignment (i + 1) inside inside' seen.2 checks.2))
    rw [List.mem_singleton.mp member]
    exact inside

lemma tidy_assignment (refassgnexpr : Option Node) (s : Scope) (container : Oid) (res prev replace : Cell)
    {out : Cell → Prop} {given : List Cell} (inside : out res) (insidePrev : out prev) (insideReplace : out replace)
    (seen : ReadsAll P (optionVars refassgnexpr)) (checks : ReadsAll P (optionCheckVars refassgnexpr)) :
    Tidy P (genAssignment setup refassgnexpr s container res prev replace) out given := by
  cases refassgnexpr with simp only [genAssignment]
  | none => exact Tidy.single admits inside ⟨rfl, rfl, rfl⟩
  | some e =>
    simp only [optionVars, optionCheckVars] at seen checks
    exact Tidy.seq (Tidy.ite (Tidy.single admits insidePrev ⟨rfl, rfl, rfl⟩) Tidy.nop)
      (Tidy.seq (tidy_gen e _ replace insideReplace seen checks) (Tidy.single admits inside ⟨rfl, rfl, rfl⟩))

lemma tidy_newvals : ∀ (newvals : List Node) (s : Scope) (fieldnums : List Int) (base n : Nat) {out : Cell → Prop}
    {given : List Cell}, (∀ c, Fresh base (base + n) c → out c) → ReadsAll P (listVars newvals) →
    ReadsAll P (listCheckVars newvals) → Tidy P (genNewvals setup newvals s fieldnums base n) out given
  | [], _, _, _, _, _, _, _, _, _ | _ :: _, _, [], _, _, _, _, _, _, _ => by
    simp only [genNewvals]
    exact Tidy.nop
  | e :: rest, s, fieldnum :: fieldnums, base, n, out, given, inside, seen, checks => by
    simp only [listVars, listCheckVars, readsAll_append] at seen checks
    have head (res : Cell) (fresh : Fresh base (base + n) res) :
        Tidy P (gen setup e { s with caseval := some res } res) out given :=
      tidy_gen e _ res (inside res fresh) seen.1 checks.1
    simp only [genNewvals]
    refine Tidy.seq ?_ (tidy_newvals rest s fieldnums base n inside seen.2 checks.2)
    split
    · exact Tidy.nop
    · exact head _ ⟨base + (fieldnum - 1).toNat, by omega, by omega, rfl⟩

lemma tidy_constraints (constraints : List DomainConstraint) (s : Scope) (typeName : String) (varlena : Bool) (res : Cell)
    (check domainval : Option Cell) {out : Cell → Prop} {given : List Cell} (inside : out res)
    (known : ∀ c, check = some c → out c) (seen : ReadsAll P (constraintsVars constraints)) :
    Tidy P (genConstraints setup constraints s typeName varlena res check domainval) out given := by
  rcases constraints with _ | ⟨_ | ⟨name, expr⟩, rest⟩ <;> simp only [genConstraints]
  · exact Tidy.nop
  · simp only [constraintsVars] at seen
    exact Tidy.seq (Tidy.step admits nofun rfl rfl)
      (tidy_constraints rest s typeName varlena res check domainval inside known seen)
  · simp only [constraintsVars, readsAll_append] at seen
    refine Tidy.work fun h => Tidy.work fun h' => ?_
    have checked : out (check.getD (.work h)) ∨ Fresh h (h + if check.isSome then 0 else 1) (check.getD (.work h)) := by
      cases check with
      | none => exact Or.inr ⟨h, Nat.le_refl h, Nat.lt_succ_self h, rfl⟩
      | some c => exact Or.inl (known c rfl)
    refine Tidy.seq ?_ (Tidy.seq (tidy_gen expr _ _ (Or.inl checked) seen.1.1 seen.1.2) (Tidy.seq
      (Tidy.step admits nofun rfl rfl)
      (tidy_constraints rest s typeName varlena res _ _ (Or.inl (Or.inl inside)) ?_ seen.2)))
    · cases domainval with
      | some c => exact Tidy.nop
      | none =>
        cases varlena with
        | false => exact Tidy.nop
        | true => exact Tidy.single admits (Or.inr ⟨h', Nat.le_refl h', Nat.lt_succ_self h', rfl⟩) ⟨rfl, rfl, rfl⟩
    · rintro c ⟨⟩
      exact Or.inl checked

end

/-! ## Programs -/

lemma tidy_qualArgs : ∀ conditions : List Node, ReadsAll P (listVars conditions) →
    ReadsAll P (listCheckVars conditions) → Tidy P (genQualArgs setup conditions) (· = .result) []
  | [], _, _ => Tidy.nop
  | e :: rest, seen, checks => by
    simp only [listVars, listCheckVars, readsAll_append] at seen checks
    have step : ∀ c ∈ (Op.qual .result).written, c = .result := fun c member => List.mem_singleton.mp member
    exact Tidy.seq (Tidy.inner (tidy_gen admits setup e .top .result rfl seen.1 checks.1)) (Tidy.seq
      (Tidy.jump admits step (Nat.le_refl 1) rfl) (tidy_qualArgs rest seen.2 checks.2))

lemma tidy_targets (junk : Bool) (inputDesc : Option (List DescAttr)) : ∀ targetList : List TargetEntry,
    ReadsAll P (listVars (targetList.map TargetEntry.expr)) →
    ReadsAll P (listCheckVars (targetList.map TargetEntry.expr)) →
    Tidy P (genTargets setup junk inputDesc targetList) (· = .result) []
  | [], _, _ => Tidy.nop
  | tle :: rest, seen, checks => by
    simp only [List.map_cons, listVars, listCheckVars, readsAll_append] at seen checks
    refine Tidy.seq ?_ (tidy_targets junk inputDesc rest seen.2 checks.2)
    unfold genTarget
    cases safe : tle.safeVar junk inputDesc with
    | some v =>
      obtain ⟨eq, pos⟩ := safeVar_eq safe
      rw [eq, Node.vars, readsAll_singleton] at seen
      exact Tidy.ofStep (seen.1.assign pos _) nofun
    | none =>
      refine Tidy.seq (tidy_gen admits setup tle.expr .top .result rfl seen.1 checks.1) (Tidy.ite Tidy.nop ?_)
      cases tle.varlena <;> exact Tidy.step admits nofun rfl rfl

lemma tidy_groupColumns : ∀ cols : List GroupColumn,
    (∀ col ∈ cols, ∀ res slot, slot ≠ .scan → P { op := .var res slot (col.keyColIdx - 1), labels := [] }) →
    Tidy P (genGroupColumns cols) (· = .result) []
  | [], _ => Tidy.nop
  | col :: rest, keys => by
    have key := keys col List.mem_cons_self
    have step : ∀ c ∈ (Op.qual .result).written, c = .result := fun c member => List.mem_singleton.mp member
    refine Tidy.seq (Tidy.inner (Tidy.work fun h => ?_)) (Tidy.seq (Tidy.jump admits step (Nat.le_refl 1) rfl)
      (tidy_groupColumns rest fun x member => keys x (List.mem_cons_of_mem col member)))
    refine Tidy.seq (Tidy.ofStep (key _ .inner nofun) fun c member => ?_) (Tidy.seq
      (Tidy.ofStep (key _ .outer nofun) fun c member => ?_) (Tidy.single admits (Or.inl rfl) ⟨rfl, rfl, rfl⟩))
    · exact Or.inr ⟨h, Nat.le_refl h, by omega, List.mem_singleton.mp member⟩
    · exact Or.inr ⟨h + 1, by omega, by omega, List.mem_singleton.mp member⟩

/-- The cells that the steps of aggregates write: all but the second argument of a deserialization
function, which is filled once. -/
def AggCell (c : Cell) : Prop :=
  match c with
  | .work _ => False
  | .deserial _ argno => argno = 0
  | _ => True

/-- The arguments of the deserialization functions that are filled once. -/
def deserialCells (numtrans : Nat) : List Cell := (List.range numtrans).map fun transno => .deserial transno 1

omit admits in
lemma targets_aggCell (p : PerTrans) (transno : Nat) : ∀ c ∈ p.targets transno, AggCell c := by
  unfold PerTrans.targets
  intro c member
  split at member
  · obtain ⟨i, _, rfl⟩ := List.mem_map.mp member
    trivial
  · split at member
    · rw [List.mem_singleton.mp member]
      trivial
    · obtain ⟨i, _, rfl⟩ := List.mem_map.mp member
      trivial

section AggTrans

variable (phase : AggPhase) (p : PerTrans) (transno : Nat) {given : List Cell}

lemma tidy_transCall (nullcheck : Bool) (setno setoff : Nat) :
    Tidy P (genTransCall nullcheck p transno setno setoff) AggCell given := by
  have step : Tidy P (Gen.step (p.transOpcode transno setno setoff) : Gen 0) AggCell given := by
    unfold PerTrans.transOpcode
    split
    · exact Tidy.step admits (fun c member => by rw [List.mem_singleton.mp member]; trivial) rfl rfl
    · split <;> exact Tidy.step admits nofun rfl rfl
  unfold genTransCall
  split
  · exact Tidy.block (Tidy.seq (Tidy.jump admits nofun (Nat.le_refl 1) rfl) (Tidy.inner step))
  · exact step

lemma tidy_transCalls (nullcheck : Bool) : ∀ n setno setoff,
    Tidy P (genTransCalls nullcheck p transno n setno setoff) AggCell given
  | 0, _, _ => Tidy.nop
  | n + 1, setno, setoff =>
    Tidy.seq (tidy_transCall admits p transno nullcheck setno setoff)
      (tidy_transCalls nullcheck n (setno + 1) (setoff + 1))

lemma tidy_aggArgs (isCombine : Bool) (known : isCombine = true → .deserial transno 1 ∈ given)
    (seen : ReadsAll P (listVars p.args)) (checks : ReadsAll P (listCheckVars p.args)) :
    Tidy P (genAggArgs setup isCombine p transno) AggCell given := by
  unfold genAggArgs genCombineArg
  cases isCombine with
  | false => exact Tidy.inner (tidy_array admits setup p.args .top _ (targets_aggCell p transno) seen checks)
  | true =>
    rw [if_pos rfl]
    cases args : p.args with
    | nil => exact Tidy.nop
    | cons source rest =>
      simp only [args, listVars, listCheckVars, readsAll_append] at seen checks
      cases p.deserialfn with
      | none => exact Tidy.inner (tidy_gen admits setup source .top _ trivial seen.1 checks.1)
      | some deserialfn =>
        refine Tidy.seq (Tidy.inner (Tidy.seq (tidy_gen admits setup source .top _ rfl seen.1 checks.1)
          (Tidy.store (known rfl) _))) ?_
        have step : ∀ c ∈ [Cell.trans transno 1], AggCell c := fun c member => by
          rw [List.mem_singleton.mp member]
          trivial
        exact Tidy.ite (Tidy.jump admits step (Nat.le_refl 1) rfl) (Tidy.inner (Tidy.step admits step rfl rfl))

lemma tidy_trans (known : phase.isCombine = true → .deserial transno 1 ∈ given) (seen : ReadsAll P p.vars)
    (checks : ReadsAll P p.checkVars) : Tidy P (genTrans setup phase p transno) AggCell given := by
  simp only [PerTrans.vars, PerTrans.checkVars, readsAll_append] at seen checks
  have filter : Tidy P (genAggFilter setup phase.isCombine p) AggCell given := by
    unfold genAggFilter
    cases filter : p.aggfilter with
    | none => exact Tidy.nop
    | some aggfilter =>
      simp only [filter, optionVars, optionCheckVars] at seen checks
      exact Tidy.ite Tidy.nop (Tidy.seq (Tidy.inner (tidy_gen admits setup aggfilter .top .result trivial seen.2 checks.2))
        (Tidy.jump admits nofun (Nat.le_refl 1) rfl))
  refine Tidy.block (Tidy.seq filter (Tidy.seq
    (tidy_aggArgs admits setup p transno phase.isCombine known seen.1.2 checks.1) (Tidy.seq ?_ (Tidy.inner ?_))))
  · exact Tidy.ite (Tidy.jump admits nofun (Nat.le_refl 1) rfl) Tidy.nop
  · exact Tidy.seq (Tidy.ite (tidy_transCalls admits p transno _ _ _ _) Tidy.nop)
      (Tidy.ite (tidy_transCalls admits p transno _ _ _ _) Tidy.nop)

lemma tidy_transValues : ∀ (pertrans : List PerTrans) (transno : Nat),
    (phase.isCombine = true → ∀ i < pertrans.length, .deserial (transno + i) 1 ∈ given) →
    ReadsAll P (pertrans.flatMap PerTrans.vars) → ReadsAll P (pertrans.flatMap PerTrans.checkVars) →
    Tidy P (genTransValues setup phase pertrans transno) AggCell given
  | [], _, _, _, _ => Tidy.nop
  | p :: rest, transno, known, seen, checks => by
    simp only [List.flatMap_cons, readsAll_append] at seen checks
    refine Tidy.seq (tidy_trans admits setup phase p transno (fun combine => known combine 0 (Nat.succ_pos _)) seen.1
      checks.1) (tidy_transValues rest (transno + 1) (fun combine i lt => ?_) seen.2 checks.2)
    rw [Nat.add_assoc, Nat.add_comm 1]
    exact known combine (i + 1) (Nat.succ_lt_succ lt)

end AggTrans

lemma Source.fetches_each (src : Source) : (src.fetches setup).Each P := by
  have slot (name : SlotName) (lastVar : Nat) : Tidy P (genSlot setup name lastVar) (fun _ => False) [] :=
    Tidy.ite (Tidy.ite Tidy.nop (Tidy.step admits nofun rfl rfl)) Tidy.nop
  cases src with
  | element elemexpr => exact fun _ => trivial
  | groupingEqual lvirtual rvirtual cols =>
    have fetch (virtual : Bool) (name : SlotName) : Tidy P (genFetch virtual name (maxAtt cols)) (fun _ => False) [] :=
      Tidy.ite Tidy.nop (Tidy.step admits nofun rfl rfl)
    exact (Tidy.seq (fetch _ _) (fetch _ _)).each
  | _ => exact (Tidy.seq (slot _ _) (Tidy.seq (slot _ _) (slot _ _))).each

omit admits setup in
lemma room_result (h : Nat) : Room h (· = .result) [] := ⟨fun _ same => same ▸ older_result h, nofun, nofun⟩

omit admits setup in
lemma room_aggCells (h numtrans : Nat) : Room h AggCell (deserialCells numtrans) := by
  refine ⟨fun c inside k le same => ?_, fun c member => ?_, fun c member inside => ?_⟩
  · rw [same] at inside
    exact inside
  · obtain ⟨transno, _, rfl⟩ := List.mem_map.mp member
    exact fun _ _ => nofun
  · obtain ⟨transno, _, rfl⟩ := List.mem_map.mp member
    exact Nat.one_ne_zero inside

lemma Source.body_tidy (src : Source) (seen : ReadsAll P src.vars) (checks : ReadsAll P src.checkVars)
    (keys : ∀ col ∈ src.keys, ∀ res slot, slot ≠ .scan → P { op := .var res slot (col.keyColIdx - 1), labels := [] }) :
    ∃ out given, Tidy P (src.body setup) out given ∧ ∀ h, Room h out given := by
  cases src with
  | expr node => exact ⟨(· = .result), [], tidy_gen admits setup node .top _ rfl seen checks, room_result⟩
  | qual conditions => exact ⟨_, _, Tidy.block (tidy_qualArgs admits setup conditions seen checks), room_result⟩
  | check conditions =>
    refine ⟨(· = .result), [], tidy_gen admits setup (makeAndsExplicit conditions) .top _ rfl ?_ ?_, room_result⟩
    · exact makeAndsExplicit_vars conditions ▸ seen
    · exact makeAndsExplicit_checkVars conditions ▸ checks
  | element elemexpr => exact ⟨(· = .result), [], tidy_gen admits setup elemexpr _ _ rfl seen checks, room_result⟩
  | projection targetList junk inputDesc =>
    exact ⟨_, _, tidy_targets admits setup junk inputDesc targetList seen checks, room_result⟩
  | aggTrans phase pertrans =>
    refine ⟨_, _, tidy_transValues admits setup phase pertrans 0 (fun _ i lt => ?_) seen checks,
      fun h => room_aggCells h pertrans.length⟩
    exact List.mem_map.mpr ⟨i, List.mem_range.mpr lt, by rw [Nat.zero_add]⟩
  | groupingEqual lvirtual rvirtual cols =>
    exact ⟨_, _, Tidy.block (tidy_groupColumns admits _ fun col member => keys col (List.mem_reverse.mp member)),
      room_result⟩

end Tidy

/-- **What the builders emit.** -/
theorem Source.body_each {P : Instr Op Nat → Prop} (admits : Admits P) (setup : Setup) (src : Source)
    (seen : ReadsAll P src.vars) (checks : ReadsAll P src.checkVars)
    (keys : ∀ col ∈ src.keys, ∀ res slot, slot ≠ .scan → P { op := .var res slot (col.keyColIdx - 1), labels := [] }) :
    (src.body setup).Each P := by
  obtain ⟨_, _, tidy, _⟩ := src.body_tidy admits setup seen checks keys
  exact tidy.each

/-! ## What code relies on -/

def AnyStep (_ : Instr Op Nat) : Prop := True

lemma admits_any : Admits AnyStep := fun _ _ _ _ => trivial

lemma reads_any (vars : List Var) : ReadsAll AnyStep vars := fun _ _ => ⟨fun _ => trivial, fun _ _ => trivial⟩

/-- **A program relies on what the compiler stored for it.** -/
theorem Source.body_relies (setup : Setup) (src : Source) (h : Nat) :
    (src.body setup).Relies ((src.body setup).piece h).constants h := by
  obtain ⟨_, _, tidy, room⟩ :=
    src.body_tidy admits_any setup (reads_any _) (reads_any _) fun _ _ _ _ _ => trivial
  exact ⟨fun _ => id, tidy.kept h (room h)⟩

end Hex.Compiler
